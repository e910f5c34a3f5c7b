import Mathlib.Logic.Relation

/-!
# Methods that change an object and may throw

A method works on an object, and what it has changed stays changed when it throws. So its result is the object as it is
left, and a value or what was thrown. A reflexive and transitive relation that every part of a method respects relates
the object before the method and after it, whether it throws or not; what a method needs and gives is put as a triple
with a condition for each of its two ends. A method that works on an abstraction of the object can stand for another one
if this simulates it. Nothing here depends on what the objects are.
-/

namespace FaasNet.Lib

/-- The object that is left, with the value or what was thrown. -/
def Method (σ ε α : Type) := σ → σ × Except ε α

namespace Method

section
variable {σ ε α β ι : Type}

def return' (value : α) : Method σ ε α := fun s => (s, .ok value)

def andThen (first : Method σ ε α) (next : α → Method σ ε β) : Method σ ε β := fun s =>
  match first s with
  | (s, .ok value) => next value s
  | (s, .error e) => (s, .error e)

instance : Monad (Method σ ε) where
  pure := return'
  bind := andThen

/-- Throws. -/
def throw (e : ε) : Method σ ε α := fun s => (s, .error e)

/-- A value that is computed without touching the object. -/
def of (value : Except ε α) : Method σ ε α := fun s => (s, value)

/-- Reads the object. -/
def read : Method σ ε σ := fun s => (s, .ok s)

/-- Each of some arguments in turn. -/
def forEach (body : ι → Method σ ε Unit) : List ι → Method σ ε Unit
  | [] => pure ()
  | i :: rest => body i >>= fun _ => forEach body rest

/-- The values for each of some arguments in turn. -/
def mapEach (body : ι → Method σ ε α) : List ι → Method σ ε (List α)
  | [] => pure []
  | i :: rest => do
    let value ← body i
    let values ← mapEach body rest
    return value :: values

variable {s : σ}

@[simp] theorem pure_apply (value : α) : (pure value : Method σ ε α) s = (s, .ok value) := rfl

@[simp] theorem throw_apply (e : ε) : (throw e : Method σ ε α) s = (s, .error e) := rfl

@[simp] theorem of_apply (value : Except ε α) : (of value : Method σ ε α) s = (s, value) := rfl

@[simp] theorem read_apply : (read : Method σ ε σ) s = (s, .ok s) := rfl

theorem bind_apply (first : Method σ ε α) (next : α → Method σ ε β) :
    (first >>= next) s = match first s with
      | (s, .ok value) => next value s
      | (s, .error e) => (s, .error e) := rfl

/-- After a method that returns, the next one goes on. -/
theorem bind_of_ok {first : Method σ ε α} {value : α} {s' : σ} (returns : first s = (s', .ok value))
    (next : α → Method σ ε β) : (first >>= next) s = next value s' := by
  rw [bind_apply, returns]

/-- A loop whose body changes nothing. -/
theorem forEach_still {body : ι → Method σ ε Unit} {is : List ι} (still : ∀ i ∈ is, body i s = (s, .ok ())) :
    forEach body is s = (s, .ok ()) := by
  induction is with
  | nil => rfl
  | cons i is ih =>
    rw [forEach, bind_of_ok (still i List.mem_cons_self)]
    exact ih fun j later => still j (List.mem_cons_of_mem i later)

/-- A loop throws if its body throws for one of the arguments. -/
theorem forEach_throws {body : ι → Method σ ε Unit} {is : List ι} {i : ι} (member : i ∈ is)
    (throws : ∀ s, ∃ e, (body i s).2 = .error e) (s : σ) : ∃ e, (forEach body is s).2 = .error e := by
  induction is generalizing s with
  | nil => cases member
  | cons j is ih =>
    rw [forEach, bind_apply]
    rcases List.mem_cons.mp member with rfl | later
    · obtain ⟨e, thrown⟩ := throws s
      generalize body i s = result at thrown
      obtain ⟨s', outcome⟩ := result
      obtain rfl : outcome = .error e := thrown
      exact ⟨e, rfl⟩
    · generalize body j s = result
      obtain ⟨s', e | ⟨⟩⟩ := result
      · exact ⟨e, rfl⟩
      · exact ih later s'

/-- A method that returns has come through all its parts. -/
theorem bind_eq_ok {first : Method σ ε α} {next : α → Method σ ε β} {s' : σ} {result : β}
    (returns : (first >>= next) s = (s', .ok result)) :
    ∃ between value, first s = (between, .ok value) ∧ next value between = (s', .ok result) := by
  rw [bind_apply] at returns
  split at returns
  next between value first => exact ⟨between, value, first, returns⟩
  next => cases (Prod.mk.inj returns).2

/-- A computation that returns has come through its parts. -/
theorem except_bind_eq_ok {first : Except ε α} {next : α → Except ε β} {result : β}
    (returns : (first >>= next) = .ok result) : ∃ value, first = .ok value ∧ next value = .ok result := by
  cases first with
  | error e => cases returns
  | ok value => exact ⟨value, rfl, returns⟩

end

/-! ## What a method does to the object -/

section
variable {σ ε α β ι : Type} {R : σ → σ → Prop}

/-- The method relates every object it is called on with what it leaves. -/
def Respects (R : σ → σ → Prop) (method : Method σ ε α) : Prop := ∀ s, R s (method s).1

theorem respects_pure (refl : ∀ s, R s s) (value : α) : Respects R (pure value : Method σ ε α) := refl

theorem respects_throw (refl : ∀ s, R s s) (e : ε) : Respects R (throw e : Method σ ε α) := refl

theorem respects_of (refl : ∀ s, R s s) (value : Except ε α) : Respects R (of value : Method σ ε α) := refl

/-- Two methods in a row respect what each of them does. -/
theorem Respects.bind (trans : ∀ s t u, R s t → R t u → R s u) {first : Method σ ε α} {next : α → Method σ ε β}
    (one : Respects R first) (other : ∀ value, Respects R (next value)) : Respects R (first >>= next) := by
  intro s
  have here := one s
  rw [bind_apply]
  split
  next between value first =>
    rw [first] at here
    exact trans _ _ _ here (other value between)
  next between e failed =>
    rw [failed] at here
    exact here

/-- A loop respects what its body does. -/
theorem respects_forEach (refl : ∀ s, R s s) (trans : ∀ s t u, R s t → R t u → R s u) {body : ι → Method σ ε Unit}
    (each : ∀ i, Respects R (body i)) (is : List ι) : Respects R (forEach body is) := by
  induction is with
  | nil => exact refl
  | cons i is ih => exact (each i).bind trans fun _ => ih

/-- A loop that collects values respects what its body does. -/
theorem respects_mapEach (refl : ∀ s, R s s) (trans : ∀ s t u, R s t → R t u → R s u) {body : ι → Method σ ε α}
    (each : ∀ i, Respects R (body i)) (is : List ι) : Respects R (mapEach body is) := by
  induction is with
  | nil => exact refl
  | cons i is ih => exact (each i).bind trans fun _ => ih.bind trans fun _ => refl

end

/-! ## What a method returns -/

section
variable {σ ε α β : Type} {P : β → Prop}

/-- Every value that the method returns satisfies `P`. -/
def Returns (P : α → Prop) (method : Method σ ε α) : Prop := ∀ s s' value, method s = (s', .ok value) → P value

theorem returns_pure {value : β} (holds : P value) : Returns P (pure value : Method σ ε β) := by
  rintro s s' value' returned
  obtain rfl : value = value' := Except.ok.inj (Prod.mk.inj returned).2
  exact holds

theorem returns_throw (e : ε) : Returns P (throw e : Method σ ε β) := by
  rintro s s' value returned
  cases (Prod.mk.inj returned).2

theorem returns_of (value : Except ε β) : Returns (fun v => value = .ok v) (of value : Method σ ε β) := by
  intro s s' v returned
  exact (Prod.mk.inj returned).2

/-- What the first part returns may be used for the second. -/
theorem Returns.bind {Q : α → Prop} {first : Method σ ε α} {next : α → Method σ ε β} (one : Returns Q first)
    (other : ∀ value, Q value → Returns P (next value)) : Returns P (first >>= next) := by
  intro s s' value returned
  obtain ⟨between, given, first, returned⟩ := bind_eq_ok returned
  exact other given (one s between given first) between s' value returned

/-- Two methods in a row return what the second does. -/
theorem returns_bind {first : Method σ ε α} {next : α → Method σ ε β} (other : ∀ value, Returns P (next value)) :
    Returns P (first >>= next) := by
  have anything : Returns (fun _ => True) first := fun _ _ _ _ => trivial
  exact anything.bind fun value _ => other value

end

/-! ## Pre- and postconditions -/

section
variable {σ ε α β ι : Type} {P I : σ → Prop} {Q : α → σ → Prop} {E : σ → Prop}

/-- From an object that satisfies `P` the method returns and leaves one that satisfies `Q`, or it throws and leaves one
that satisfies `E`. -/
def Triple (P : σ → Prop) (method : Method σ ε α) (Q : α → σ → Prop) (E : σ → Prop) : Prop :=
  ∀ s, P s → match method s with
    | (s', .ok value) => Q value s'
    | (s', .error _) => E s'

/-- What is left if it is the same whether the method throws or not. -/
theorem Triple.leaves {method : Method σ ε α} (triple : Triple P method (fun _ => E) E) {s : σ} (pre : P s) :
    E (method s).1 := by
  have post := triple s pre
  generalize method s = result at post ⊢
  obtain ⟨s', e | value⟩ := result
  · exact post
  · exact post

theorem triple_pure {value : α} (holds : ∀ s, P s → Q value s) : Triple P (pure value : Method σ ε α) Q E := holds

theorem triple_throw (e : ε) (holds : ∀ s, P s → E s) : Triple P (throw e : Method σ ε α) Q E := holds

theorem triple_of {value : Except ε α} (returns : ∀ v s, value = .ok v → P s → Q v s) (throws : ∀ s, P s → E s) :
    Triple P (of value : Method σ ε α) Q E := by
  intro s pre
  rw [of_apply]
  cases value with
  | ok v => exact returns v s rfl pre
  | error e => exact throws s pre

/-- The rule of two methods in a row. -/
theorem Triple.bind {R : β → σ → Prop} {first : Method σ ε α} {next : α → Method σ ε β} (one : Triple P first Q E)
    (other : ∀ value, Triple (Q value) (next value) R E) : Triple P (first >>= next) R E := by
  intro s pre
  have between := one s pre
  rw [bind_apply]
  generalize first s = result at between ⊢
  obtain ⟨s', e | value⟩ := result
  · exact between
  · exact other value s' between

/-- The rule of consequence. -/
theorem Triple.weaken {method : Method σ ε α} {P' : σ → Prop} {Q' : α → σ → Prop} {E' : σ → Prop}
    (triple : Triple P method Q E) (pre : ∀ s, P' s → P s) (post : ∀ value s, Q value s → Q' value s)
    (thrown : ∀ s, E s → E' s) : Triple P' method Q' E' := by
  intro s holds
  have here := triple s (pre s holds)
  generalize method s = result at here ⊢
  obtain ⟨s', e | value⟩ := result
  · exact thrown s' here
  · exact post value s' here

/-- A loop keeps what its body keeps. -/
theorem triple_forEach {body : ι → Method σ ε Unit} {is : List ι} (each : ∀ i ∈ is, Triple I (body i) (fun _ => I) E) :
    Triple I (forEach body is) (fun _ => I) E := by
  induction is with
  | nil => exact triple_pure fun _ holds => holds
  | cons i is ih =>
    exact (each i List.mem_cons_self).bind fun _ => ih fun j member => each j (List.mem_cons_of_mem i member)

/-- The rule of a loop that collects values: its body keeps the invariant. -/
theorem triple_mapEach {V : α → Prop} {body : ι → Method σ ε α} {is : List ι}
    (each : ∀ i ∈ is, Triple I (body i) (fun value s => I s ∧ V value) E) :
    Triple I (mapEach body is) (fun values s => I s ∧ ∀ value ∈ values, V value) E := by
  induction is with
  | nil => exact triple_pure fun _ holds => ⟨holds, by simp⟩
  | cons i is ih =>
    refine (each i List.mem_cons_self).bind fun value => ?_
    intro s ⟨holds, here⟩
    refine ((ih fun j member => each j (List.mem_cons_of_mem i member)).bind fun values => triple_pure ?_) s holds
    exact fun s' ⟨holds', others⟩ => ⟨holds', by simpa using ⟨here, others⟩⟩

end

/-! ## Two levels of one method -/

section
variable {σ τ ε α β ι : Type} {R : σ → τ → Prop}

/-- What the one method does to its object the other does to an abstraction of it, and both have the same outcome. -/
def Simulates (R : σ → τ → Prop) (method : Method σ ε α) (abstract : Method τ ε α) : Prop :=
  ∀ s t, R s t → R (method s).1 (abstract t).1 ∧ (method s).2 = (abstract t).2

theorem simulates_pure (value : α) : Simulates R (pure value : Method σ ε α) (pure value) :=
  fun _ _ related => ⟨related, rfl⟩

theorem simulates_throw (e : ε) : Simulates R (throw e : Method σ ε α) (throw e) := fun _ _ related => ⟨related, rfl⟩

theorem simulates_of (value : Except ε α) : Simulates R (of value : Method σ ε α) (of value) :=
  fun _ _ related => ⟨related, rfl⟩

/-- Methods in a row are simulated one after the other. -/
theorem Simulates.bind {first : Method σ ε α} {first' : Method τ ε α} {next : α → Method σ ε β} {next' : α → Method τ ε β}
    (one : Simulates R first first') (other : ∀ value, Simulates R (next value) (next' value)) :
    Simulates R (first >>= next) (first' >>= next') := by
  intro s t related
  obtain ⟨between, same⟩ := one s t related
  rw [bind_apply, bind_apply]
  generalize first s = result at between same ⊢
  generalize first' t = result' at between same ⊢
  obtain ⟨s', outcome⟩ := result
  obtain ⟨t', outcome'⟩ := result'
  obtain rfl : outcome = outcome' := same
  cases outcome with
  | error e => exact ⟨between, rfl⟩
  | ok value => exact other value s' t' between

theorem simulates_forEach {body : ι → Method σ ε Unit} {body' : ι → Method τ ε Unit}
    (each : ∀ i, Simulates R (body i) (body' i)) (is : List ι) : Simulates R (forEach body is) (forEach body' is) := by
  induction is with
  | nil => exact simulates_pure ()
  | cons i is ih => exact (each i).bind fun _ => ih

theorem simulates_mapEach {body : ι → Method σ ε α} {body' : ι → Method τ ε α}
    (each : ∀ i, Simulates R (body i) (body' i)) (is : List ι) : Simulates R (mapEach body is) (mapEach body' is) := by
  induction is with
  | nil => exact simulates_pure []
  | cons i is ih => exact (each i).bind fun _ => ih.bind fun _ => simulates_pure _

end

end Method

end FaasNet.Lib
