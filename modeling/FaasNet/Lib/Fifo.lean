import Mathlib.Data.List.Basic

/-!
# First in, first out

The abstract queue: the list of what is inside. Over any sequence of operations, what has come out
followed by what is inside is what was inside at the start followed by what went in. Nothing here
depends on what the items are.
-/

namespace FaasNet.Lib

inductive FifoOp (α : Type*) where
  | enqueue (item : α)
  | dequeue

namespace Fifo

section
variable {α : Type*}

/-- What an operation yields, and what is inside after it. -/
def step (inside : List α) : FifoOp α → Option α × List α
  | .enqueue item => (none, inside ++ [item])
  | .dequeue => (inside.head?, inside.tail)

/-- The items that come out. -/
def out : List α → List (FifoOp α) → List α
  | _, [] => []
  | inside, op :: ops => (step inside op).1.toList ++ out (step inside op).2 ops

/-- What is inside after the operations. -/
def after : List α → List (FifoOp α) → List α
  | inside, [] => inside
  | inside, op :: ops => after (step inside op).2 ops

/-- The items that go in. -/
def entered : List (FifoOp α) → List α
  | [] => []
  | .enqueue item :: ops => item :: entered ops
  | .dequeue :: ops => entered ops

/-- **Conservation in order.** -/
theorem out_append_after (inside : List α) (ops : List (FifoOp α)) :
    out inside ops ++ after inside ops = inside ++ entered ops := by
  induction ops generalizing inside with
  | nil => simp [out, after, entered]
  | cons op ops ih =>
    rw [out, after, List.append_assoc, ih]
    cases op with
    | enqueue item => simp [step, entered]
    | dequeue => cases inside <;> simp [step, entered]

/-- What came out is the beginning of what went in. -/
theorem out_prefix (ops : List (FifoOp α)) : out [] ops <+: entered ops :=
  ⟨after [] ops, out_append_after [] ops⟩

/-- Nothing is inside exactly when all that went in came out. -/
theorem after_eq_nil_iff (ops : List (FifoOp α)) : after [] ops = [] ↔ out [] ops = entered ops := by
  rw [← List.nil_append (entered ops), ← out_append_after]
  exact (List.self_eq_append_right).symm

end

end Fifo

end FaasNet.Lib
