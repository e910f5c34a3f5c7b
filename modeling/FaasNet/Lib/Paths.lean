import Mathlib.Data.List.Chain

/-!
# Paths

A path is a list that begins at a start and whose neighbours are related. It is extended at its end, and what is
on it, but for its last element, leads to something on it.
-/

namespace FaasNet.Lib

section
variable {α : Type*} (start : α → Prop) (R : α → α → Prop)

/-- A path from a start along a relation. -/
def PathFrom (path : List α) : Prop := path.IsChain R ∧ ∀ a ∈ path.head?, start a

variable {start R} {path : List α} {a b : α}

theorem pathFrom_singleton : PathFrom start R [a] ↔ start a := by simp [PathFrom]

theorem PathFrom.left (is : PathFrom start R (path ++ [a])) : PathFrom start R path := by
  refine ⟨is.1.left_of_append, fun b first => is.2 b ?_⟩
  rw [List.head?_append, Option.mem_def.mp first]
  rfl

theorem PathFrom.extend (is : PathFrom start R (path ++ [a])) (related : R a b) :
    PathFrom start R (path ++ [a] ++ [b]) := by
  refine ⟨is.1.append (List.isChain_singleton b) ?_, fun c first => is.2 c ?_⟩
  · intro x last y head
    obtain rfl : a = x := by simpa using last
    obtain rfl : b = y := by simpa using head
    exact related
  · simpa using first

/-- The end of a path is replaced by one that is reached in the same way. -/
theorem PathFrom.replace (is : PathFrom start R (path ++ [a])) (starts : start a → start b)
    (related : ∀ c, R c a → R c b) : PathFrom start R (path ++ [b]) := by
  obtain ⟨chain, first⟩ := is
  obtain ⟨left, -, joint⟩ := List.isChain_append.mp chain
  refine ⟨left.append (List.isChain_singleton b) fun x last y head => ?_, fun c head => ?_⟩
  · obtain rfl : b = y := by simpa using head
    exact related x (joint x last a (by simp))
  · cases path with
    | nil =>
      obtain rfl : b = c := by simpa using head
      exact starts (first a (by simp))
    | cons d path => exact first c (by simpa using head)

/-- What is before the end leads on along the path. -/
theorem PathFrom.next (is : PathFrom start R (path ++ [a])) (member : b ∈ path) : ∃ c ∈ path ++ [a], R b c := by
  obtain ⟨before, after, rfl⟩ := List.append_of_mem member
  have chain := is.1
  cases after with
  | nil =>
    refine ⟨a, by simp, ?_⟩
    rw [List.append_assoc, List.cons_append, List.nil_append] at chain
    exact (List.isChain_append_cons_cons.mp chain).2.1
  | cons c after =>
    refine ⟨c, by simp, ?_⟩
    rw [List.append_assoc, List.cons_append, List.cons_append] at chain
    exact (List.isChain_append_cons_cons.mp chain).2.1

end

end FaasNet.Lib
