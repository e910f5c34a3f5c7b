import Mathlib.Order.WellFounded
import Mathlib.Data.Fintype.Order
import Mathlib.Logic.Relation

/-!
# Loops

A loop repeats a step until the step returns. It ends if every repetition goes down a well-founded relation,
and never does if every repetition keeps it among states from which the step does not return. Nothing here
depends on what the states are.
-/

namespace FaasNet.Lib

section
variable {σ ρ α : Type*} (step : σ → ρ ⊕ σ)

/-- What the loop returns, if the fuel is enough. -/
def loop : Nat → σ → Option ρ
  | 0, _ => none
  | fuel + 1, s =>
    match step s with
    | .inl result => some result
    | .inr next => loop fuel next

/-- Where the loop is after some steps: it has returned, or goes on. -/
def steps : Nat → σ → ρ ⊕ σ
  | 0, s => .inr s
  | n + 1, s => Sum.elim .inl (steps n) (step s)

/-- The loop returns after finitely many steps. -/
def LoopEnds (s : σ) : Prop := ∃ fuel, (loop step fuel s).isSome

variable {step}

theorem loop_succ (fuel : Nat) (s : σ) :
    loop step (fuel + 1) s = match step s with
      | .inl result => some result
      | .inr next => loop step fuel next := rfl

theorem steps_succ (n : Nat) (s : σ) : steps step (n + 1) s = Sum.elim .inl (steps step n) (step s) := rfl

theorem loopEnds_of_returns {s : σ} {result : ρ} (returns : step s = .inl result) : LoopEnds step s :=
  ⟨1, by simp [loop_succ, returns]⟩

theorem loopEnds_of_next {s next : σ} (continues : step s = .inr next) (ends : LoopEnds step next) :
    LoopEnds step s := by
  obtain ⟨fuel, enough⟩ := ends
  exact ⟨fuel + 1, by simpa [loop_succ, continues] using enough⟩

/-- What every repetition keeps holds of what the loop returns. -/
theorem loop_invariant {Inv : σ → Prop} {Post : ρ → Prop}
    (returns : ∀ s result, Inv s → step s = .inl result → Post result)
    (keeps : ∀ s next, Inv s → step s = .inr next → Inv next) {fuel : Nat} {s : σ} {result : ρ}
    (returned : loop step fuel s = some result) (start : Inv s) : Post result := by
  induction fuel generalizing s with
  | zero => cases returned
  | succ fuel ih =>
    cases taken : step s with
    | inl last =>
      obtain rfl : last = result := by simpa [loop_succ, taken] using returned
      exact returns s last start taken
    | inr next => exact ih (by simpa [loop_succ, taken] using returned) (keeps s next start taken)

/-- The same, with one condition on what a step gives. -/
theorem loop_sum {Inv : σ → Prop} {Post : ρ → Prop} (each : ∀ s, Inv s → Sum.elim Post Inv (step s)) {fuel : Nat} {s : σ}
    {result : ρ} (returned : loop step fuel s = some result) (start : Inv s) : Post result := by
  refine loop_invariant (fun s last here ends => ?_) (fun s next here continues => ?_) returned start
  · simpa [ends] using each s here
  · simpa [continues] using each s here

/-- What every step keeps holds after any number of them. -/
theorem steps_sum {Inv : σ → Prop} {Post : ρ → Prop} (each : ∀ s, Inv s → Sum.elim Post Inv (step s)) (n : Nat) {s : σ}
    (start : Inv s) : Sum.elim Post Inv (steps step n s) := by
  induction n generalizing s with
  | zero => exact start
  | succ n ih =>
    have here := each s start
    rw [steps_succ]
    cases taken : step s with
    | inl result =>
      rw [taken] at here
      exact here
    | inr next =>
      rw [taken] at here
      exact ih here

theorem steps_of_loop {fuel : Nat} {s : σ} {result : ρ} (returned : loop step fuel s = some result) :
    steps step fuel s = .inl result := by
  induction fuel generalizing s with
  | zero => cases returned
  | succ fuel ih =>
    rw [loop_succ] at returned
    rw [steps_succ]
    cases taken : step s with
    | inl last =>
      rw [taken] at returned
      exact congrArg Sum.inl (Option.some.inj returned)
    | inr next =>
      rw [taken] at returned
      exact ih returned

/-- **A loop that goes down ends.** `At s a` says where in the relation a state is. -/
theorem loopEnds_of_wellFounded {R : α → α → Prop} (wf : WellFounded R) (At : σ → α → Prop)
    (descends : ∀ s a next, At s a → step s = .inr next → ∃ b, R b a ∧ At next b) {s : σ} {a : α} (start : At s a) :
    LoopEnds step s := by
  induction a using wf.induction generalizing s with
  | _ a ih =>
    cases taken : step s with
    | inl result => exact loopEnds_of_returns taken
    | inr next =>
      obtain ⟨b, below, there⟩ := descends s a next start taken
      exact loopEnds_of_next taken (ih b below there)

/-- **A loop that is never left does not end.** -/
theorem not_loopEnds {Inv : σ → Prop} (stays : ∀ s, Inv s → ∃ next, step s = .inr next ∧ Inv next) {s : σ}
    (start : Inv s) : ¬ LoopEnds step s := by
  rintro ⟨fuel, enough⟩
  induction fuel generalizing s with
  | zero => cases enough
  | succ fuel ih =>
    obtain ⟨next, taken, there⟩ := stays s start
    exact ih there (by simpa [loop_succ, taken] using enough)

end

/-- A relation on finitely many elements without a cycle is well-founded. -/
theorem wellFounded_of_acyclic {α : Type*} [Finite α] {R : α → α → Prop}
    (acyclic : ∀ a, ¬ Relation.TransGen R a a) : WellFounded R := by
  have irrefl : Std.Irrefl (Relation.TransGen R) := ⟨acyclic⟩
  have trans : IsTrans α (Relation.TransGen R) := inferInstance
  exact (Finite.wellFounded_of_trans_of_irrefl (Relation.TransGen R)).mono fun _ _ => .single

end FaasNet.Lib
