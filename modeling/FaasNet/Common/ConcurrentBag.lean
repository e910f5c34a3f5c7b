import Mathlib.Data.Multiset.AddSub
import Mathlib.Logic.Relation

/-!
# `ConcurrentBagExtensions.Remove`

A `ConcurrentBag` used by one thread is a list of its items in the order in which `TryTake` would
yield them. The bag promises no order, so a statement about every list is a statement about every
order. `Remove` takes items out until it meets the one it looks for, then puts the others back. A relation with a step for
each item that may be taken says the same without a list: all of its runs end, and the list is one of them.
-/

namespace FaasNet.Common

section
variable {α : Type*} [DecidableEq α]

/-- The `while` loop of `Remove`: what was put aside in `lst`, and what is left in the bag. -/
def removeLoop (item : α) : List α → List α → List α × List α
  | lst, [] => (lst, [])
  | lst, result :: bag =>
    if result = item then (lst, bag) else removeLoop item (lst ++ [result]) bag

/-- `ConcurrentBagExtensions.Remove(bag, item)`. -/
def remove (bag : List α) (item : α) : List α :=
  (removeLoop item [] bag).2 ++ (removeLoop item [] bag).1

theorem removeLoop_perm (item : α) (lst bag : List α) :
    ((removeLoop item lst bag).2 ++ (removeLoop item lst bag).1).Perm (lst ++ bag.erase item) := by
  induction bag generalizing lst with
  | nil => simp [removeLoop]
  | cons result bag ih =>
    by_cases same : result = item
    · simpa [removeLoop, same] using List.perm_append_comm
    · simpa [removeLoop, same] using ih (lst ++ [result])

/-- `Remove` takes out one occurrence of the item and nothing else. -/
theorem remove_perm (bag : List α) (item : α) : (remove bag item).Perm (bag.erase item) :=
  removeLoop_perm item [] bag

theorem remove_cons_perm {bag : List α} {item : α} (h : item ∈ bag) :
    (item :: remove bag item).Perm bag :=
  ((remove_perm bag item).cons item).trans (List.perm_cons_erase h).symm

theorem length_remove {bag : List α} {item : α} (h : item ∈ bag) :
    (remove bag item).length + 1 = bag.length :=
  (remove_cons_perm h).length_eq

end

/-! ## Every order -/

/-- Where `Remove` is: it takes items out of the bag, or puts those of `lst` back. -/
inductive Removal (α : Type*) where
  | taking (bag : Multiset (Option α)) (lst : List (Option α))
  | adding (bag : Multiset (Option α)) (lst : List (Option α))

namespace Removal
variable {α : Type*} (equals : α → Bool)

/-- `result == null || result.Equals(item)`. -/
def breaks (result : Option α) : Bool := result.all equals

/-- `TryTake` may yield any of the items. -/
inductive Step : Removal α → Removal α → Prop where
  | empty {lst : List (Option α)} : Step (taking 0 lst) (adding 0 lst)
  | found {result : Option α} {bag : Multiset (Option α)} {lst : List (Option α)} (here : breaks equals result) :
    Step (taking (result ::ₘ bag) lst) (adding bag lst)
  | aside {result : Option α} {bag : Multiset (Option α)} {lst : List (Option α)} (other : ¬ breaks equals result) :
    Step (taking (result ::ₘ bag) lst) (taking bag (lst ++ [result]))
  | add {l : Option α} {bag : Multiset (Option α)} {lst : List (Option α)} :
    Step (adding bag (l :: lst)) (adding (l ::ₘ bag) lst)

/-- What is left to do. -/
def left : Removal α → Nat
  | taking bag lst => 2 * bag.card + lst.length + 1
  | adding _ lst => lst.length

variable {equals}

theorem left_lt {s t : Removal α} (step : Step equals s t) : t.left < s.left := by
  cases step with
  | empty => exact Nat.lt_succ_of_le (Nat.le_add_left _ _)
  | found here =>
    simp only [left, Multiset.card_cons]
    omega
  | aside other =>
    simp only [left, Multiset.card_cons, List.length_append, List.length_singleton]
    omega
  | add =>
    simp only [left, List.length_cons]
    omega

/-- No run goes on for ever. -/
theorem step_wellFounded (equals : α → Bool) : WellFounded fun t s : Removal α => Step equals s t :=
  Subrelation.wf (fun step => left_lt step) (measure left).wf

/-- What was taken out is no occurrence, or there is one occurrence less. -/
def Keeps (equals : α → Bool) (content : Multiset (Option α)) : Removal α → Prop
  | taking bag lst => content = bag + lst ∧ ∀ r ∈ lst, ¬ breaks equals r
  | adding bag lst => (∃ r, breaks equals r ∧ content = r ::ₘ (bag + lst)) ∨
      (∀ r ∈ content, ¬ breaks equals r) ∧ content = bag + lst

theorem Keeps.step {content : Multiset (Option α)} {s t : Removal α} (keeps : Keeps equals content s)
    (step : Step equals s t) : Keeps equals content t := by
  cases step with
  | empty =>
    obtain ⟨same, others⟩ := keeps
    refine .inr ⟨fun r mem => others r ?_, same⟩
    rw [same] at mem
    simpa using mem
  | found here =>
    obtain ⟨same, -⟩ := keeps
    exact .inl ⟨_, here, same.trans (Multiset.cons_add ..)⟩
  | @aside result bag lst other =>
    obtain ⟨same, others⟩ := keeps
    have last : ((lst ++ [result] : List (Option α)) : Multiset (Option α)) = result ::ₘ lst :=
      Multiset.coe_eq_coe.mpr (List.perm_append_singleton result lst)
    constructor
    · rw [same, last, Multiset.add_cons, Multiset.cons_add]
    · intro r mem
      rcases List.mem_append.mp mem with earlier | now
      · exact others r earlier
      · rwa [List.mem_singleton.mp now]
  | add =>
    have moved : ∀ (l : Option α) (bag : Multiset (Option α)) (lst : List (Option α)),
        bag + ((l :: lst : List (Option α)) : Multiset (Option α)) = (l ::ₘ bag) + lst := by
      intro l bag lst
      rw [← Multiset.cons_coe, Multiset.add_cons, Multiset.cons_add]
    rw [Keeps, moved] at keeps
    exact keeps

/-- As long as it is not done, `Remove` can go on. -/
theorem done_or_step (s : Removal α) : (∃ bag, s = adding bag []) ∨ ∃ t, Step equals s t := by
  cases s with
  | taking bag lst =>
    induction bag using Multiset.induction with
    | empty => exact .inr ⟨_, .empty⟩
    | cons result bag =>
      by_cases here : breaks equals result
      · exact .inr ⟨_, .found here⟩
      · exact .inr ⟨_, .aside here⟩
  | adding bag lst =>
    cases lst with
    | nil => exact .inl ⟨bag, rfl⟩
    | cons l lst => exact .inr ⟨_, .add⟩

/-- Whatever the order of the items, `Remove` ends, and has taken out one occurrence of the item, or nothing if there was
none. -/
theorem remove_ends (equals : α → Bool) {bag : Multiset (Option α)} (nonNull : none ∉ bag) :
    (WellFounded fun t s : Removal α => Step equals s t) ∧
      ∀ s, Relation.ReflTransGen (Step equals) (taking bag []) s → (∃ t, Step equals s t) ∨
        ∃ result, s = adding result [] ∧ ((∃ item, equals item ∧ bag = some item ::ₘ result) ∨
          (∀ item, some item ∈ bag → ¬ equals item) ∧ result = bag) := by
  refine ⟨step_wellFounded equals, fun s run => ?_⟩
  have keeps : Keeps equals bag s := by
    induction run with
    | refl => exact ⟨by simp, fun _ mem => (by cases mem)⟩
    | tail _ step ih => exact ih.step step
  obtain ⟨result, rfl⟩ | goesOn := @done_or_step _ equals s
  · refine .inr ⟨result, rfl, ?_⟩
    rw [Keeps, Multiset.coe_nil, Multiset.add_zero] at keeps
    obtain ⟨taken, here, same⟩ | ⟨others, same⟩ := keeps
    · cases taken with
      | none => exact absurd (same ▸ Multiset.mem_cons_self none result) nonNull
      | some item => exact .inl ⟨item, here, same⟩
    · exact .inr ⟨fun item mem => others (some item) mem, same.symm⟩
  · exact .inl goesOn

/-- One of two items is removed. -/
theorem remove_ends_two :
    (WellFounded fun t s : Removal Nat => Step (· = 1) s t) ∧
      ∀ s, Relation.ReflTransGen (Step (· = 1)) (taking {some 1, some 2} []) s → (∃ t, Step (· = 1) s t) ∨
        ∃ result, s = adding result [] ∧ ((∃ item, (decide (item = 1)) = true ∧ {some 1, some 2} = some item ::ₘ result) ∨
          (∀ item, some item ∈ ({some 1, some 2} : Multiset (Option Nat)) → ¬ (decide (item = 1)) = true) ∧
            result = {some 1, some 2}) :=
  remove_ends (· = 1) (by decide)

/-- The loop over a list is the run that takes the items in the order of the list. -/
theorem removeLoop_run [DecidableEq α] (item : α) (lst bag : List α) :
    Relation.ReflTransGen (Step fun result => decide (result = item)) (taking (bag.map some) (lst.map some))
      (adding ((removeLoop item lst bag).2.map some) ((removeLoop item lst bag).1.map some)) := by
  induction bag generalizing lst with
  | nil => exact .single .empty
  | cons result bag ih =>
    rw [removeLoop, List.map_cons, ← Multiset.cons_coe]
    split_ifs with same
    · have here : breaks (fun result => decide (result = item)) (some result) := decide_eq_true same
      exact .single (.found here)
    · have other : ¬ breaks (fun result => decide (result = item)) (some result) := by simpa [breaks] using same
      apply Relation.ReflTransGen.head (.aside other)
      have rest := ih (lst ++ [result])
      rwa [List.map_append] at rest

end Removal

end FaasNet.Common
