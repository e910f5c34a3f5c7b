import Mathlib.Data.List.Basic

/-!
# Noninterference

A system answers every action. Some of the actions are a party's own; the others interfere with it if the answers to
its own depend on them. They do not if there is a relation between states, alike as far as the party can tell, that own
actions keep and answer alike and that other actions do not leave. Nothing here depends on what the states, the actions
and the answers are.
-/

namespace FaasNet.Lib

section
variable {σ α ω : Type*} (next : σ → α → σ × ω)

/-- The actions of a run with their answers. -/
def outputs : σ → List α → List (α × ω)
  | _, [] => []
  | s, a :: as => (a, (next s a).2) :: outputs (next s a).1 as

/-- The own actions are answered as they are in the run without the others. -/
def NotInterfered (own : α → Bool) (s : σ) (as : List α) : Prop :=
  (outputs next s as).filter (fun output => own output.1) = outputs next s (as.filter own)

variable {next}

/-- The two runs from states that are alike. -/
theorem outputs_of_unwinding {own : α → Bool} {ok : α → Prop} (Alike : σ → σ → Prop)
    (keeps : ∀ s t a, Alike s t → ok a → own a → (next s a).2 = (next t a).2 ∧ Alike (next s a).1 (next t a).1)
    (hides : ∀ s t a, Alike s t → ok a → ¬ own a → Alike (next s a).1 t)
    {s t : σ} {as : List α} (start : Alike s t) (each : ∀ a ∈ as, ok a) :
    (outputs next s as).filter (fun output => own output.1) = outputs next t (as.filter own) := by
  induction as generalizing s t with
  | nil => rfl
  | cons a as ih =>
    have here := each a List.mem_cons_self
    have rest : ∀ b ∈ as, ok b := fun b member => each b (List.mem_cons_of_mem a member)
    by_cases mine : own a
    · obtain ⟨answer, alike⟩ := keeps s t a start here mine
      rw [List.filter_cons, if_pos mine, outputs, outputs, List.filter_cons, if_pos mine, answer, ih alike rest]
    · rw [List.filter_cons, if_neg mine, outputs, List.filter_cons, if_neg mine]
      exact ih (hides s t a start here mine) rest

/-- **The unwinding rule.** -/
theorem notInterfered_of_unwinding {own : α → Bool} {ok : α → Prop} (Alike : σ → σ → Prop)
    (keeps : ∀ s t a, Alike s t → ok a → own a → (next s a).2 = (next t a).2 ∧ Alike (next s a).1 (next t a).1)
    (hides : ∀ s t a, Alike s t → ok a → ¬ own a → Alike (next s a).1 t)
    {s : σ} {as : List α} (start : Alike s s) (each : ∀ a ∈ as, ok a) : NotInterfered next own s as :=
  outputs_of_unwinding Alike keeps hides start each

end

end FaasNet.Lib
