import Mathlib.Data.List.Basic

/-!
# Runs of a labelled transition system

A system is a partial step function `step : σ → α → Option σ`; `none` says the action is not
enabled. A run is a list of actions. `Along ok` says that every action of a run meets `ok` in the
state it is taken from, `Always P` that every state of the run satisfies `P`. Nothing here depends
on what the states and the actions are.
-/

namespace FaasNet.Lib

section
variable {σ α : Type*} (step : σ → α → Option σ)

/-- The state a list of actions leads to, if each of them is enabled in its turn. -/
def run : σ → List α → Option σ
  | s, [] => some s
  | s, a :: as => (step s a).bind fun t => run t as

/-- Every action of the run meets `ok` in the state before it. -/
def Along (ok : σ → α → Prop) : σ → List α → Prop
  | _, [] => True
  | s, a :: as => ok s a ∧ ∀ t, step s a = some t → Along ok t as

/-- Every state of the run satisfies `P`, the first one included. -/
def Always (P : σ → Prop) : σ → List α → Prop
  | s, [] => P s
  | s, a :: as => P s ∧ ∀ t, step s a = some t → Always P t as

/-- Checking a condition along a run. -/
instance decidableAlong {ok : σ → α → Prop} [∀ s a, Decidable (ok s a)] :
    ∀ s as, Decidable (Along step ok s as)
  | _, [] => inferInstanceAs (Decidable True)
  | s, a :: as =>
    have : ∀ t, Decidable (Along step ok t as) := fun t => decidableAlong t as
    inferInstanceAs (Decidable (ok s a ∧ ∀ t ∈ step s a, Along step ok t as))

variable {step}

theorem run_cons {s t : σ} {a : α} {as : List α} (h : run step s (a :: as) = some t) :
    ∃ u, step s a = some u ∧ run step u as = some t :=
  Option.bind_eq_some_iff.1 h

/-- A run on fixed inputs is evaluated, and what can be decided of its end is checked there. -/
theorem run_checked {s : σ} {as : List α} {P : σ → Prop} [DecidablePred P]
    (checked : (run step s as).any (fun t => decide (P t)) = true) : ∃ t, run step s as = some t ∧ P t := by
  cases reached : run step s as with
  | none => simp [reached] at checked
  | some t => exact ⟨t, rfl, by simpa [reached] using checked⟩

/-- A condition on the actions alone. -/
theorem along_of_forall {ok : σ → α → Prop} {s : σ} {as : List α} (each : ∀ a ∈ as, ∀ t, ok t a) :
    Along step ok s as := by
  induction as generalizing s with
  | nil => trivial
  | cons a as ih =>
    exact ⟨each a List.mem_cons_self s, fun t _ => ih fun b member => each b (List.mem_cons_of_mem a member)⟩

/-- A condition on the actions alone, where each of them is enabled. -/
theorem along_iff_forall {ok : α → Prop} (total : ∀ s a, (step s a).isSome) {s : σ} {as : List α} :
    Along step (fun _ a => ok a) s as ↔ ∀ a ∈ as, ok a := by
  induction as generalizing s with
  | nil => exact iff_of_true trivial fun _ member => (by cases member)
  | cons a as ih =>
    obtain ⟨t, taken⟩ := Option.isSome_iff_exists.mp (total s a)
    rw [List.forall_mem_cons]
    apply and_congr_right
    intro _
    constructor
    · intro rest
      exact ih.mp (rest t taken)
    · intro rest u _
      exact ih.mpr rest

theorem along_congr {ok ok' : σ → α → Prop} (same : ∀ s a, ok s a ↔ ok' s a) {s : σ} {as : List α} :
    Along step ok s as ↔ Along step ok' s as := by
  induction as generalizing s with
  | nil => exact Iff.rfl
  | cons a as ih => exact and_congr (same s a) (forall_congr' fun _ => imp_congr_right fun _ => ih)

theorem Along.and {ok ok' : σ → α → Prop} {s : σ} {as : List α} (first : Along step ok s as) (second : Along step ok' s as) :
    Along step (fun s a => ok s a ∧ ok' s a) s as := by
  induction as generalizing s with
  | nil => trivial
  | cons a as ih => exact ⟨⟨first.1, second.1⟩, fun t taken => ih (first.2 t taken) (second.2 t taken)⟩

theorem Along.imp {ok ok' : σ → α → Prop} (implies : ∀ s a, ok s a → ok' s a) {s : σ} {as : List α}
    (along : Along step ok s as) : Along step ok' s as := by
  induction as generalizing s with
  | nil => trivial
  | cons a as ih => exact ⟨implies s a along.1, fun t taken => ih (along.2 t taken)⟩

theorem Always.start {P : σ → Prop} {s : σ} {as : List α} (always : Always step P s as) : P s := by
  cases as with
  | nil => exact always
  | cons a as => exact always.1

theorem Always.imp {P Q : σ → Prop} (implies : ∀ s, P s → Q s) {s : σ} {as : List α} (always : Always step P s as) :
    Always step Q s as := by
  induction as generalizing s with
  | nil => exact implies s always
  | cons a as ih => exact ⟨implies s always.1, fun t taken => ih (always.2 t taken)⟩

/-- What holds in every state of a run holds where it leads. -/
theorem Always.reached {P : σ → Prop} {s t : σ} {as : List α} (always : Always step P s as)
    (reached : run step s as = some t) : P t := by
  induction as generalizing s with
  | nil =>
    obtain rfl : s = t := Option.some.inj reached
    exact always
  | cons a as ih =>
    obtain ⟨u, first, rest⟩ := run_cons reached
    exact ih (always.2 u first) rest

/-- What holds at the start and is preserved by every step that meets `ok` holds in every state of a run
whose steps meet `ok`. -/
theorem always_of_along {P : σ → Prop} {ok : σ → α → Prop}
    (preserved : ∀ s a t, P s → ok s a → step s a = some t → P t)
    {s : σ} {as : List α} (start : P s) (along : Along step ok s as) : Always step P s as := by
  induction as generalizing s with
  | nil => exact start
  | cons a as ih =>
    exact ⟨start, fun t taken => ih (preserved s a t start along.1 taken) (along.2 t taken)⟩

/-- If every step meets `ok`, an invariant that such steps keep holds at every step, and so does what follows
from both. -/
theorem along_of_invariant (Inv : σ → Prop) {ok ok' : σ → α → Prop}
    (preserved : ∀ s a t, Inv s → ok s a → step s a = some t → Inv t) (follows : ∀ s a, Inv s → ok s a → ok' s a)
    {s : σ} {as : List α} (start : Inv s) (along : Along step ok s as) : Along step ok' s as := by
  induction as generalizing s with
  | nil => trivial
  | cons a as ih =>
    exact ⟨follows s a start along.1, fun t taken => ih (preserved s a t start along.1 taken) (along.2 t taken)⟩

/-- Two conditions that say the same wherever an invariant holds, which every step meeting them keeps. -/
theorem along_iff_of_invariant (Inv : σ → Prop) {ok ok' : σ → α → Prop}
    (preserved : ∀ s a t, Inv s → ok' s a → step s a = some t → Inv t) (same : ∀ s a, Inv s → (ok s a ↔ ok' s a))
    {s : σ} {as : List α} (start : Inv s) : Along step ok s as ↔ Along step ok' s as := by
  constructor
  · apply along_of_invariant Inv
    · intro s a t inv meets taken
      exact preserved s a t inv ((same s a inv).mp meets) taken
    · intro s a inv
      exact (same s a inv).mp
    · exact start
  · apply along_of_invariant Inv preserved
    · intro s a inv
      exact (same s a inv).mpr
    · exact start

/-- **The invariant rule.** What holds at the start and is preserved by every step that meets `ok`
holds wherever a run whose steps meet `ok` leads. -/
theorem run_invariant (Inv : σ → Prop) {ok : σ → α → Prop}
    (preserved : ∀ s a t, Inv s → ok s a → step s a = some t → Inv t)
    {s t : σ} {as : List α} (start : Inv s) (along : Along step ok s as)
    (reached : run step s as = some t) : Inv t := by
  induction as generalizing s with
  | nil => cases reached; exact start
  | cons a as ih =>
    obtain ⟨u, first, rest⟩ := run_cons reached
    exact ih (preserved s a u start along.1 first) (along.2 u first) rest

/-- A reflexive and transitive relation that every step meeting `ok` respects relates the two ends
of a run. The invariant is there because a step may need it. -/
theorem run_related (Inv : σ → Prop) {ok : σ → α → Prop} {R : σ → σ → Prop}
    (refl : ∀ s, R s s) (trans : ∀ s t u, R s t → R t u → R s u)
    (preserved : ∀ s a t, Inv s → ok s a → step s a = some t → Inv t)
    (related : ∀ s a t, Inv s → ok s a → step s a = some t → R s t)
    {s t : σ} {as : List α} (start : Inv s) (along : Along step ok s as)
    (reached : run step s as = some t) : R s t := by
  induction as generalizing s with
  | nil => cases reached; exact refl _
  | cons a as ih =>
    obtain ⟨u, first, rest⟩ := run_cons reached
    exact trans s u t (related s a u start along.1 first)
      (ih (preserved s a u start along.1 first) (along.2 u first) rest)

/-- The exact-condition rule, for an invariant that also speaks of the actions still to come. -/
theorem always_iff_along_rest (Inv : σ → List α → Prop) {P : σ → Prop} {ok : σ → α → Prop}
    (preserved : ∀ s a as t, Inv s (a :: as) → P s → step s a = some t → Inv t as)
    (disabled : ∀ s a as, Inv s (a :: as) → P s → step s a = none → ok s a)
    (keeps : ∀ s a as t, Inv s (a :: as) → P s → step s a = some t → (P t ↔ ok s a))
    {s : σ} {as : List α} (inv : Inv s as) (start : P s) :
    Always step P s as ↔ Along step ok s as := by
  induction as generalizing s with
  | nil => exact ⟨fun _ => trivial, fun _ => start⟩
  | cons a as ih =>
    cases taken : step s a with
    | none =>
      refine ⟨fun _ => ⟨disabled s a as inv start taken, fun t ht => ?_⟩,
        fun _ => ⟨start, fun t ht => ?_⟩⟩ <;> simp [taken] at ht
    | some u =>
      have next := preserved s a as u inv start taken
      constructor
      · rintro ⟨_, rest⟩
        have always := rest u taken
        have here : P u := always.start
        refine ⟨(keeps s a as u inv start taken).1 here, fun t ht => ?_⟩
        obtain rfl : u = t := by simpa [taken] using ht
        exact (ih next here).1 always
      · rintro ⟨meets, rest⟩
        refine ⟨start, fun t ht => ?_⟩
        obtain rfl : u = t := by simpa [taken] using ht
        exact (ih next ((keeps s a as u inv start taken).2 meets)).2 (rest u taken)

/-- **The exact-condition rule.** If, from a state with `P`, a step keeps `P` exactly when it meets
`ok`, then a run stays in `P` exactly when all its steps meet `ok`. `Inv` is kept by every step from
a state with `P`. -/
theorem always_iff_along (Inv : σ → Prop) {P : σ → Prop} {ok : σ → α → Prop}
    (preserved : ∀ s a t, Inv s → P s → step s a = some t → Inv t)
    (disabled : ∀ s a, Inv s → P s → step s a = none → ok s a)
    (keeps : ∀ s a t, Inv s → P s → step s a = some t → (P t ↔ ok s a))
    {s : σ} {as : List α} (inv : Inv s) (start : P s) :
    Always step P s as ↔ Along step ok s as :=
  always_iff_along_rest (fun s _ => Inv s) (fun s a _ => preserved s a) (fun s a _ => disabled s a)
    (fun s a _ => keeps s a) inv start

end

end FaasNet.Lib
