import Mathlib.Data.List.Nodup
import Mathlib.Data.List.Perm.Basic
import Mathlib.Logic.Relation

/-!
# Graphs that are drawn and pruned

A graph is a list of elements with a key each, and every element names the keys of the next ones. Drawing goes through
the graph depth first and notes each element once, and each edge; it always comes to an end. Pruning takes an element out
after all that can be reached from it, and comes to an end if no cycle can be reached.
-/

namespace FaasNet.Lib

/-- A filter that lets less through, and not this element. -/
theorem length_filter_lt {α : Type*} {p q : α → Bool} {l : List α} (fewer : ∀ b, p b → q b) {a : α} (member : a ∈ l)
    (in_q : q a) (not_p : ¬ p a) : (l.filter p).length < (l.filter q).length := by
  have sublist : (l.filter p).Sublist (l.filter q) := List.monotone_filter_right l fewer
  refine Nat.lt_of_le_of_ne sublist.length_le fun same => not_p ?_
  have inside : a ∈ l.filter p := by
    rw [sublist.eq_of_length same]
    exact List.mem_filter.mpr ⟨member, in_q⟩
  exact (List.mem_filter.mp inside).2

/-! ## Drawing -/

/-- What has been drawn so far. -/
structure Drawing (α : Type*) where
  nodes : List α := []
  edges : List (α × α) := []
  deriving DecidableEq, Repr

section
variable {α : Type*} [DecidableEq α] (next : α → List α)

/-- Draws an element and what comes after it, unless it is there. -/
def draw : Nat → α → Drawing α → Option (Drawing α)
  | 0, _, _ => none
  | fuel + 1, a, drawing =>
    if a ∈ drawing.nodes then some drawing
    else (next a).foldlM (fun drawing b => (draw fuel b drawing).map fun drawing =>
      { drawing with edges := drawing.edges ++ [(a, b)] }) { drawing with nodes := drawing.nodes ++ [a] }

/-- The edges of an element. -/
def edgesFrom (a : α) : List (α × α) := (next a).map (Prod.mk a)

/-- New elements are drawn with all their edges, and what these lead to is there; some edges of elements before them are
drawn as well. -/
structure Grows (extra : List (α × α)) (before after : Drawing α) (new : List α) : Prop where
  nodes : after.nodes = before.nodes ++ new
  edges : after.edges.Perm (before.edges ++ (new.flatMap (edgesFrom next) ++ extra))
  closed : ∀ a ∈ new, ∀ b ∈ next a, b ∈ after.nodes
  fresh : before.nodes.Nodup → after.nodes.Nodup

variable {next} {extra : List (α × α)} {before after drawing : Drawing α} {new : List α}

omit [DecidableEq α] in
theorem Grows.refl (drawing : Drawing α) : Grows next [] drawing drawing [] :=
  ⟨by simp, by simp, nofun, id⟩

omit [DecidableEq α] in
theorem Grows.trans {extra' : List (α × α)} {new' : List α} {last : Drawing α} (one : Grows next extra before after new)
    (two : Grows next extra' after last new') : Grows next (extra ++ extra') before last (new ++ new') := by
  refine ⟨?_, ?_, fun a member b leads => ?_, two.fresh ∘ one.fresh⟩
  · rw [two.nodes, one.nodes, List.append_assoc]
  · refine two.edges.trans ((one.edges.append_right _).trans ?_)
    rw [List.flatMap_append, List.append_assoc, List.append_assoc, List.append_assoc]
    refine (List.Perm.append_left _ (List.Perm.append_left _ ?_))
    rw [← List.append_assoc, ← List.append_assoc]
    exact List.perm_append_comm.append_right _
  · rcases List.mem_append.mp member with earlier | later
    · rw [two.nodes]
      exact List.mem_append_left _ (one.closed a earlier b leads)
    · exact two.closed a later b leads

omit [DecidableEq α] in
theorem Grows.edge (grows : Grows next extra before after new) (edge : α × α) :
    Grows next (extra ++ [edge]) before { after with edges := after.edges ++ [edge] } new := by
  refine ⟨grows.nodes, ?_, grows.closed, grows.fresh⟩
  rw [← List.append_assoc, ← List.append_assoc]
  exact (grows.edges.append_right _).trans (by simp)

/-- The elements that come after one are drawn one by one. -/
theorem drawAll_grows {fuel : Nat} {a : α} {bs : List α}
    (each : ∀ b {before after : Drawing α}, draw next fuel b before = some after →
      ∃ new, Grows next [] before after new ∧ b ∈ after.nodes)
    (drawn : bs.foldlM (fun drawing b => (draw next fuel b drawing).map fun drawing =>
      { drawing with edges := drawing.edges ++ [(a, b)] }) before = some after) :
    ∃ new, Grows next (bs.map (Prod.mk a)) before after new ∧ ∀ b ∈ bs, b ∈ after.nodes := by
  induction bs generalizing before with
  | nil =>
    obtain rfl : before = after := Option.some.inj drawn
    exact ⟨[], .refl _, nofun⟩
  | cons b bs ih =>
    rw [List.foldlM_cons] at drawn
    obtain ⟨between, first, rest⟩ := Option.bind_eq_some_iff.mp drawn
    obtain ⟨reached, here, rfl⟩ := Option.map_eq_some_iff.mp first
    obtain ⟨new, grows, there⟩ := each b here
    obtain ⟨more, grows', others⟩ := ih rest
    refine ⟨new ++ more, (grows.edge (a, b)).trans grows', fun c member => ?_⟩
    rcases List.mem_cons.mp member with rfl | later
    · rw [grows'.nodes]
      exact List.mem_append_left _ there
    · exact others c later

/-- An element is drawn with everything that comes after it. -/
theorem draw_grows {fuel : Nat} {a : α} (drawn : draw next fuel a before = some after) :
    ∃ new, Grows next [] before after new ∧ a ∈ after.nodes := by
  induction fuel generalizing a before after with
  | zero => cases drawn
  | succ fuel ih =>
    unfold draw at drawn
    split_ifs at drawn with present
    · obtain rfl : before = after := Option.some.inj drawn
      exact ⟨[], .refl _, present⟩
    · obtain ⟨new, grows, reached⟩ := drawAll_grows (fun b _ _ => ih) drawn
      have here : a ∈ after.nodes := by
        rw [grows.nodes]
        simp
      refine ⟨a :: new, ⟨?_, ?_, ?_, fun nodup => grows.fresh ?_⟩, here⟩
      · rw [grows.nodes]
        simp
      · refine grows.edges.trans ?_
        rw [List.flatMap_cons, List.append_nil]
        exact List.perm_append_comm.append_left _
      · intro b member c leads
        rcases List.mem_cons.mp member with rfl | later
        · exact reached c leads
        · exact grows.closed b later c leads
      · rw [List.nodup_append_comm, List.singleton_append]
        exact List.nodup_cons.mpr ⟨present, nodup⟩

/-- Drawing comes to an end: there are finitely many elements, and each is drawn once. -/
theorem draw_isSome {elements : List α} (closed : ∀ a ∈ elements, ∀ b ∈ next a, b ∈ elements) {fuel : Nat} {a : α}
    (known : a ∈ elements) (enough : (elements.filter fun b => b ∉ drawing.nodes).length < fuel) :
    (draw next fuel a drawing).isSome := by
  induction fuel generalizing a drawing with
  | zero => simp at enough
  | succ fuel ih =>
    unfold draw
    split_ifs with present
    · rfl
    have fewer : (elements.filter fun b => b ∉ drawing.nodes ++ [a]).length < fuel := by
      have less := length_filter_lt (p := fun b => b ∉ drawing.nodes ++ [a]) (q := fun b => b ∉ drawing.nodes)
        (by simp +contextual) known (by simpa using present) (by simp)
      omega
    have all (bs : List α) (inside : ∀ b ∈ bs, b ∈ elements) (drawing : Drawing α)
        (enough : (elements.filter fun b => b ∉ drawing.nodes).length < fuel) :
        (bs.foldlM (fun drawing b => (draw next fuel b drawing).map fun drawing =>
          { drawing with edges := drawing.edges ++ [(a, b)] }) drawing).isSome := by
      induction bs generalizing drawing with
      | nil => rfl
      | cons b bs ih' =>
        obtain ⟨after, drawn⟩ := Option.isSome_iff_exists.mp (ih (inside b List.mem_cons_self) enough)
        obtain ⟨new, grows, -⟩ := draw_grows drawn
        rw [List.foldlM_cons, drawn]
        apply ih' fun c member => inside c (List.mem_cons_of_mem b member)
        refine Nat.lt_of_le_of_lt (List.Sublist.length_le (List.monotone_filter_right elements fun c unseen => ?_)) enough
        simp only [decide_eq_true_eq] at unseen ⊢
        intro seen
        apply unseen
        rw [grows.nodes]
        exact List.mem_append_left _ seen
    exact all (next a) (closed a known) _ fewer

end

/-! ## Pruning -/

section
variable {α κ : Type*} [DecidableEq κ] (key : α → κ) (next : α → List κ)

/-- Takes an element out of the list, after those that come after it. If it is not there any more, the last one is taken
out. -/
def prune : Nat → List α → α → Option (List α)
  | 0, _, _ => none
  | fuel + 1, l, a =>
    ((next a).foldlM (fun (l : List α) k => match l.find? fun b => key b = k with
      | none => some l
      | some child => prune fuel l child) l).map fun (l : List α) =>
        (l.findIdx? fun b => key b = key a).elim l.dropLast l.eraseIdx

/-- The one names the other, and both are in the list. -/
def Linked (l : List α) (a b : α) : Prop := a ∈ l ∧ b ∈ l ∧ key b ∈ next a

variable {key next}

/-- More fuel does not change the result. -/
theorem prune_mono {fuel more : Nat} (enough : fuel ≤ more) {l after : List α} {a : α}
    (pruned : prune key next fuel l a = some after) : prune key next more l a = some after := by
  induction fuel generalizing more l a after with
  | zero => cases pruned
  | succ fuel ih =>
    obtain ⟨more, rfl⟩ : ∃ n, more = n + 1 := ⟨more - 1, by omega⟩
    unfold prune at pruned ⊢
    obtain ⟨between, folded, rfl⟩ := Option.map_eq_some_iff.mp pruned
    refine Option.map_eq_some_iff.mpr ⟨between, ?_, rfl⟩
    clear pruned
    generalize next a = ks at folded ⊢
    induction ks generalizing l with
    | nil => exact folded
    | cons k ks ih' =>
      rw [List.foldlM_cons] at folded ⊢
      obtain ⟨first, here, rest⟩ := Option.bind_eq_some_iff.mp folded
      refine Option.bind_eq_some_iff.mpr ⟨first, ?_, ih' rest⟩
      split at here
      next missing => exact here
      next child found => exact ih (by omega) here

end

section
variable {α κ : Type*} [DecidableEq κ] {key : α → κ} {next : α → List κ} {l : List α}

open Classical in
/-- What is left of the list when those elements are taken out. -/
noncomputable def without (l : List α) (gone : α → Prop) : List α := l.filter fun b => ¬ gone b

theorem mem_without {gone : α → Prop} {b : α} : b ∈ without l gone ↔ b ∈ l ∧ ¬ gone b := by
  simp [without]

theorem without_congr {gone gone' : α → Prop} (same : ∀ b ∈ l, gone b ↔ gone' b) : without l gone = without l gone' := by
  classical
  exact List.filter_congr fun b member => by simp [same b member]

/-- Looking for an element among those that are left. -/
theorem find?_without (distinct : (l.map key).Nodup) {gone : α → Prop} {b : α} (member : b ∈ l) :
    ((without l gone).find? fun c => key c = key b) = some b ↔ ¬ gone b := by
  constructor
  · intro found
    exact (mem_without.mp (List.mem_of_find?_eq_some found)).2
  · intro stays
    have present : b ∈ without l gone := mem_without.mpr ⟨member, stays⟩
    have isSome : ((without l gone).find? fun c => key c = key b).isSome := List.find?_isSome.mpr ⟨b, present, by simp⟩
    obtain ⟨c, found⟩ := Option.isSome_iff_exists.mp isSome
    have same : key c = key b := by simpa using List.find?_some found
    have inside := (mem_without.mp (List.mem_of_find?_eq_some found)).1
    rw [found, List.inj_on_of_nodup_map distinct inside member same]

open Classical in
/-- An element that is there is taken out. -/
theorem elim_eraseIdx (distinct : (l.map key).Nodup) {a : α} (member : a ∈ l) (otherwise : List α) :
    (l.findIdx? fun b => key b = key a).elim otherwise l.eraseIdx = l.filter fun b => b ≠ a := by
  induction l with
  | nil => cases member
  | cons b l ih =>
    obtain ⟨new, rest⟩ := List.nodup_cons.mp distinct
    rw [List.findIdx?_cons]
    by_cases first : key b = key a
    · obtain rfl : b = a := List.inj_on_of_nodup_map distinct List.mem_cons_self member first
      have others : ∀ c ∈ l, c ≠ b := by
        rintro c inside rfl
        exact new (List.mem_map_of_mem inside)
      have all : (l.filter fun c => c ≠ b) = l := List.filter_eq_self.mpr fun c inside => by simpa using others c inside
      simpa using all.symm
    · have apart : b ≠ a := fun same => first (congrArg key same)
      have inside : a ∈ l := (List.mem_cons.mp member).resolve_left (Ne.symm apart)
      have erased := ih rest inside
      obtain ⟨k, found⟩ : ∃ k, (l.findIdx? fun c => key c = key a) = some k :=
        Option.isSome_iff_exists.mp (List.findIdx?_isSome.trans (List.any_eq_true.mpr ⟨a, inside, by simp⟩))
      rw [found] at erased ⊢
      simpa [first, apart] using erased

theorem eraseIdx_without (distinct : (l.map key).Nodup) {gone : α → Prop} {a : α} (member : a ∈ l) (stays : ¬ gone a) :
    ((without l gone).findIdx? fun b => key b = key a).elim (without l gone).dropLast (without l gone).eraseIdx =
      without l fun b => gone b ∨ b = a := by
  classical
  have present : a ∈ without l gone := mem_without.mpr ⟨member, stays⟩
  have distinct' : ((without l gone).map key).Nodup := distinct.sublist (List.filter_sublist.map key)
  rw [elim_eraseIdx distinct' present, without, without, List.filter_filter]
  exact List.filter_congr fun b _ => by simp [Bool.and_comm]

/-- Nothing that can be reached from an element leads back to it. -/
def AcyclicFrom (key : α → κ) (next : α → List κ) (l : List α) (a : α) : Prop :=
  ∀ b, Relation.ReflTransGen (Linked key next l) a b → ¬ Relation.TransGen (Linked key next l) b b

/-- Going through the next elements of one takes out what can be reached from them. -/
theorem pruneAll_eq (distinct : (l.map key).Nodup) {ks : List κ}
    (each : ∀ b ∈ l, key b ∈ ks → ∀ gone : α → Prop, (∀ c d, gone c → Linked key next l c d → gone d) → ¬ gone b →
      ∃ n, ∀ fuel ≥ n, prune key next fuel (without l gone) b =
        some (without l fun c => gone c ∨ Relation.ReflTransGen (Linked key next l) b c))
    {gone : α → Prop} (closed : ∀ c d, gone c → Linked key next l c d → gone d) :
    ∃ n, ∀ fuel ≥ n, ks.foldlM (fun (l : List α) k => match l.find? fun b => key b = k with
      | none => some l
      | some child => prune key next fuel l child) (without l gone) =
        some (without l fun c => gone c ∨ ∃ b ∈ l, key b ∈ ks ∧ Relation.ReflTransGen (Linked key next l) b c) := by
  induction ks generalizing gone with
  | nil =>
    refine ⟨0, fun fuel _ => ?_⟩
    rw [List.foldlM_nil]
    exact congrArg some (without_congr fun c _ => by simp)
  | cons k ks ih =>
    have rest := fun b member listed => each b member (List.mem_cons_of_mem k listed)
    by_cases there : ∃ b ∈ l, key b = k ∧ ¬ gone b
    · obtain ⟨b, member, rfl, stays⟩ := there
      have found := (find?_without distinct member).mpr stays
      have closed' : ∀ c d, (gone c ∨ Relation.ReflTransGen (Linked key next l) b c) → Linked key next l c d →
          (gone d ∨ Relation.ReflTransGen (Linked key next l) b d) := by
        rintro c d (before | path) linked
        · exact .inl (closed c d before linked)
        · exact .inr (path.tail linked)
      obtain ⟨n, pruned⟩ := each b member List.mem_cons_self gone closed stays
      obtain ⟨m, pruned'⟩ := ih rest closed'
      refine ⟨max n m, fun fuel enough => ?_⟩
      rw [List.foldlM_cons, found]
      dsimp only
      rw [pruned fuel (by omega), Option.bind_eq_bind, Option.bind_some, pruned' fuel (by omega)]
      refine congrArg some (without_congr fun c _ => ⟨?_, ?_⟩)
      · rintro ((before | path) | ⟨b', inside, listed, path⟩)
        · exact .inl before
        · exact .inr ⟨b, member, List.mem_cons_self, path⟩
        · exact .inr ⟨b', inside, List.mem_cons_of_mem _ listed, path⟩
      · rintro (before | ⟨b', inside, listed, path⟩)
        · exact .inl (.inl before)
        · rcases List.mem_cons.mp listed with same | later
          · obtain rfl := List.inj_on_of_nodup_map distinct inside member same
            exact .inl (.inr path)
          · exact .inr ⟨b', inside, later, path⟩
    · -- no such element is left, and if there was one, what can be reached from it is gone as well
      have missing : ((without l gone).find? fun b => key b = k) = none := by
        rw [List.find?_eq_none]
        intro c inside same
        obtain ⟨member, stays⟩ := mem_without.mp inside
        exact there ⟨c, member, by simpa using same, stays⟩
      obtain ⟨n, pruned⟩ := ih rest closed
      refine ⟨n, fun fuel enough => ?_⟩
      rw [List.foldlM_cons, missing]
      dsimp only
      rw [Option.bind_eq_bind, Option.bind_some, pruned fuel enough]
      refine congrArg some (without_congr fun c _ => ⟨Or.imp_right ?_, ?_⟩)
      · rintro ⟨b, inside, listed, path⟩
        exact ⟨b, inside, List.mem_cons_of_mem k listed, path⟩
      · rintro (before | ⟨b, inside, listed, path⟩)
        · exact .inl before
        · rcases List.mem_cons.mp listed with rfl | later
          · have gone_b : gone b := by
              by_contra stays
              exact there ⟨b, inside, rfl, stays⟩
            have along : ∀ d, Relation.ReflTransGen (Linked key next l) b d → gone d := by
              intro d path
              induction path with
              | refl => exact gone_b
              | tail _ linked ih => exact closed _ _ ih linked
            exact .inl (along c path)
          · exact .inr ⟨b, inside, later, path⟩

/-- **Pruning takes out what can be reached**, if no cycle can be. -/
theorem prune_eq (distinct : (l.map key).Nodup) {a : α} (member : a ∈ l) (acyclic : AcyclicFrom key next l a)
    {gone : α → Prop} (closed : ∀ c d, gone c → Linked key next l c d → gone d) (stays : ¬ gone a) :
    ∃ n, ∀ fuel ≥ n, prune key next fuel (without l gone) a =
      some (without l fun c => gone c ∨ Relation.ReflTransGen (Linked key next l) a c) := by
  classical
  -- by the number of elements that can be reached
  induction size : (l.filter fun c => Relation.ReflTransGen (Linked key next l) a c).length using Nat.strongRecOn
    generalizing a gone with
  | _ size ih =>
    subst size
    have back {b : α} (linked : Linked key next l a b) : ¬ Relation.ReflTransGen (Linked key next l) b a :=
      fun path => acyclic a .refl (.head' linked path)
    have each : ∀ b ∈ l, key b ∈ next a → ∀ gone : α → Prop, (∀ c d, gone c → Linked key next l c d → gone d) → ¬ gone b →
        ∃ n, ∀ fuel ≥ n, prune key next fuel (without l gone) b =
          some (without l fun c => gone c ∨ Relation.ReflTransGen (Linked key next l) b c) := by
      intro b inside listed gone closed stays
      have linked : Linked key next l a b := ⟨member, inside, listed⟩
      refine ih _ ?_ inside (fun c path => acyclic c (path.head linked)) closed stays rfl
      refine length_filter_lt (fun c path => ?_) member (by simpa using .refl) (by simpa using back linked)
      simp only [decide_eq_true_eq] at path ⊢
      exact path.head linked
    obtain ⟨n, pruned⟩ := pruneAll_eq distinct each closed
    refine ⟨n + 1, fun fuel enough => ?_⟩
    obtain ⟨fuel, rfl⟩ : ∃ m, fuel = m + 1 := ⟨fuel - 1, by omega⟩
    unfold prune
    rw [pruned fuel (by omega), Option.map_some, eraseIdx_without distinct member]
    · refine congrArg some (without_congr fun c _ => ?_)
      constructor
      · rintro ((before | ⟨b, inside, listed, path⟩) | rfl)
        · exact .inl before
        · exact .inr (path.head ⟨member, inside, listed⟩)
        · exact .inr .refl
      · rintro (before | path)
        · exact .inl (.inl before)
        · rcases path.cases_head with rfl | ⟨b, linked, rest⟩
          · exact .inr rfl
          · exact .inl (.inr ⟨b, linked.2.1, linked.2.2, rest⟩)
    · rintro (before | ⟨b, inside, listed, path⟩)
      · exact stays before
      · exact back ⟨member, inside, listed⟩ path

end

end FaasNet.Lib
