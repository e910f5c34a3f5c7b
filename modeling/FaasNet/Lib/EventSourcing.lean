import Mathlib.Data.List.Basic

/-!
# Event sourcing

A state that is changed by events through a handler. The handler may fail, and may have changed the state
before it does. Replaying events handles them in turn and stops at the first failure. A log may hold the events of
several streams; a view of it has the state of each of them, and handles one event at a time. Nothing here depends
on what the states and the events are.
-/

namespace FaasNet.Lib

section
variable {σ ε χ : Type*} (handle : σ → ε → σ × Except χ Unit)

/-- The state after the events, and the failure of the one that was not handled. -/
def replay : σ → List ε → σ × Except χ Unit
  | s, [] => (s, .ok ())
  | s, e :: es =>
    match handle s e with
    | (t, .ok ()) => replay t es
    | (t, .error x) => (t, .error x)

variable {handle}

theorem replay_append {s t : σ} {es : List ε} (replayed : replay handle s es = (t, .ok ())) (more : List ε) :
    replay handle s (es ++ more) = replay handle t more := by
  induction es generalizing s with
  | nil =>
    obtain ⟨rfl, _⟩ := Prod.mk.inj replayed
    rfl
  | cons e es ih =>
    rw [List.cons_append, replay]
    rw [replay] at replayed
    split at replayed
    · exact ih replayed
    · simp at replayed

/-- One event more. -/
theorem replay_concat {s t u : σ} {es : List ε} {e : ε} (replayed : replay handle s es = (t, .ok ()))
    (handled : handle t e = (u, .ok ())) : replay handle s (es ++ [e]) = (u, .ok ()) := by
  rw [replay_append replayed, replay, handled]
  rfl

/-- What can be replayed can be replayed up to any point of it. -/
theorem replay_split {s t : σ} {es more : List ε} (replayed : replay handle s (es ++ more) = (t, .ok ())) :
    ∃ u, replay handle s es = (u, .ok ()) ∧ replay handle u more = (t, .ok ()) := by
  induction es generalizing s with
  | nil => exact ⟨s, rfl, replayed⟩
  | cons e es ih =>
    rw [List.cons_append, replay] at replayed
    rw [replay]
    split at replayed
    · exact ih replayed
    · simp at replayed

end

/-! ## Streams in one log -/

section
variable {σ ε χ κ : Type*} [DecidableEq κ]

/-- The events of one stream. -/
def streamOf (key : ε → κ) (log : List ε) (k : κ) : List ε := log.filter fun e => key e = k

/-- Each stream can be replayed, and an event that opens a stream is the first of its own, and no other is. -/
structure Streams (handle : σ → ε → σ × Except χ Unit) (init : σ) (key : ε → κ) (opens : ε → Prop) (log : List ε) :
    Prop where
  replays : ∀ k, ∃ s, replay handle init (streamOf key log k) = (s, .ok ())
  opens : ∀ before e after, log = before ++ e :: after → (opens e ↔ streamOf key before (key e) = [])

/-- The view of a log: the state of each stream that has begun. -/
def viewOf (handle : σ → ε → σ × Except χ Unit) (init : σ) (key : ε → κ) (log : List ε) (k : κ) : Option σ :=
  if streamOf key log k = [] then none else some (replay handle init (streamOf key log k)).1

section
variable {handle : σ → ε → σ × Except χ Unit} {init : σ} {key : ε → κ} {opens : ε → Prop} {log : List ε}

theorem streamOf_append (log more : List ε) (k : κ) :
    streamOf key (log ++ more) k = streamOf key log k ++ streamOf key more k := List.filter_append ..

theorem streamOf_concat (log : List ε) (e : ε) (k : κ) :
    streamOf key (log ++ [e]) k = streamOf key log k ++ if key e = k then [e] else [] := by
  by_cases same : key e = k <;> simp [streamOf, same]

theorem streamOf_of_forall {block : List ε} {k : κ} (same : ∀ e ∈ block, key e = k) (k' : κ) :
    streamOf key block k' = if k = k' then block else [] := by
  split_ifs with equal
  · exact List.filter_eq_self.mpr fun e member => by simpa [equal] using same e member
  · exact List.filter_eq_nil_iff.mpr fun e member => by simpa [same e member] using equal

theorem Streams.nil : Streams handle init key opens [] :=
  ⟨fun _ => ⟨init, rfl⟩, fun before e after split => by simp at split⟩

theorem Streams.of_append {more : List ε} (streams : Streams handle init key opens (log ++ more)) :
    Streams handle init key opens log := by
  constructor
  · intro k
    obtain ⟨s, replayed⟩ := streams.replays k
    rw [streamOf_append] at replayed
    obtain ⟨u, first, -⟩ := replay_split replayed
    exact ⟨u, first⟩
  · intro before e after split
    apply streams.opens before e (after ++ more)
    rw [split, List.append_assoc, List.cons_append]

/-- A block of events of one stream is appended. -/
theorem Streams.append (streams : Streams handle init key opens log) {block : List ε} {k : κ}
    (same : ∀ e ∈ block, key e = k) {s : σ} (replayed : replay handle init (streamOf key log k ++ block) = (s, .ok ()))
    (first : ∀ before e after, block = before ++ e :: after → (opens e ↔ streamOf key log k = [] ∧ before = [])) :
    Streams handle init key opens (log ++ block) := by
  constructor
  · intro k'
    rw [streamOf_append, streamOf_of_forall same]
    split_ifs with equal
    · exact ⟨s, equal ▸ replayed⟩
    · rw [List.append_nil]
      exact streams.replays k'
  · intro before e after split
    rcases List.append_eq_append_iff.mp split with ⟨added, rfl, rest⟩ | ⟨added, rest, tail⟩
    · have inBlock : ∀ e ∈ added, key e = k := fun e member => same e (rest ▸ List.mem_append_left _ member)
      have own : key e = k := same e (rest ▸ by simp)
      rw [first added e after rest, own, streamOf_append, List.append_eq_nil_iff, streamOf_of_forall inBlock, if_pos rfl]
    · cases added with
      | nil =>
        rw [List.append_nil] at rest
        rw [List.nil_append] at tail
        have own : key e = k := same e (tail ▸ List.mem_cons_self)
        rw [first [] e after tail.symm, own, rest]
        simp
      | cons e' added =>
        obtain ⟨rfl, -⟩ : e = e' ∧ after = added ++ block := by simpa using tail
        exact streams.opens before e added rest

/-- What the next event does to the view: it is handled on the state of its stream, which is not there yet exactly if the
event opens it, and the other streams stay as they are. -/
theorem Streams.viewOf_concat {e : ε} (streams : Streams handle init key opens (log ++ [e])) :
    (opens e ↔ viewOf handle init key log (key e) = none) ∧
      ∃ s, handle ((viewOf handle init key log (key e)).getD init) e = (s, .ok ()) ∧
        ∀ k, viewOf handle init key (log ++ [e]) k = if k = key e then some s else viewOf handle init key log k := by
  have opens := streams.opens log e [] rfl
  obtain ⟨s, replayed⟩ := streams.replays (key e)
  rw [streamOf_concat, if_pos rfl] at replayed
  obtain ⟨u, before, last⟩ := replay_split replayed
  have handled : handle u e = (s, .ok ()) := by
    rw [replay] at last
    split at last
    next t handled => rw [handled, (Prod.mk.inj last).1]
    next t x handled => simp at last
  have state : (viewOf handle init key log (key e)).getD init = u := by
    unfold viewOf
    split_ifs with empty
    · rw [empty] at before
      exact (Prod.mk.inj before).1
    · rw [before, Option.getD_some]
  refine ⟨?_, s, by rw [state, handled], fun k => ?_⟩
  · rw [opens]
    unfold viewOf
    split_ifs with empty <;> simp [empty]
  · by_cases same : k = key e
    · have longer : streamOf key (log ++ [e]) k = streamOf key log (key e) ++ [e] := by
        rw [same, streamOf_concat, if_pos rfl]
      rw [if_pos same, viewOf, longer, if_neg (by simp), replayed]
    · have unchanged : streamOf key (log ++ [e]) k = streamOf key log k := by
        rw [streamOf_concat, if_neg (Ne.symm same), List.append_nil]
      rw [if_neg same, viewOf, viewOf, unchanged]

end

end

end FaasNet.Lib
