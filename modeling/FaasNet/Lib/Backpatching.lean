import Mathlib.Logic.Function.Basic
import Mathlib.Data.List.Induction

/-!
# Linking in one pass

Definitions and uses of keys come in some order. A use whose key is defined is linked at once; any other is kept, and
linked when the definition comes. The two ways need not do the same to the slot of the use. What a slot holds in the end
depends on nothing but which of the two came first. Nothing here depends on what keys, values and slots are.
-/

namespace FaasNet.Lib

variable {K V U P S M : Type*}

/-- What a use does: with a value that is known (`now`: it can fail, or find no use for the value), and, by what is kept
of it, with one that comes afterwards (`later`: it can fail). -/
structure Linker (K V U P S M : Type*) where
  key : U → K
  slot : U → S
  keep : U → P
  keptSlot : P → S
  keptSlot_keep : ∀ use, keptSlot (keep use) = slot use
  now : U → V → Option (Option (M → M))
  later : P → V → Option (M → M)

/-- What is met. -/
inductive Met (K V U : Type*) where
  | define (key : K) (value : V)
  | use (use : U)
  | failure

/-- The definitions, what is kept of the uses without one, and the slots. -/
structure Linking (K V P S M : Type*) where
  defs : List (K × V)
  pending : List (P × K)
  links : S → M

/-- Nothing is defined or kept. -/
structure Linking.Starts (s : Linking K V P S M) : Prop where
  defs : s.defs = []
  pending : s.pending = []

namespace Met

/-- The definitions among what is met. -/
def defsOf (met : List (Met K V U)) : List (K × V) :=
  met.filterMap fun | .define key value => some (key, value) | _ => none

@[simp] theorem defsOf_nil : defsOf ([] : List (Met K V U)) = [] := rfl

@[simp] theorem defsOf_append (before after : List (Met K V U)) :
    defsOf (before ++ after) = defsOf before ++ defsOf after := List.filterMap_append

@[simp] theorem defsOf_define (key : K) (value : V) (rest : List (Met K V U)) :
    defsOf (.define key value :: rest) = (key, value) :: defsOf rest := rfl

@[simp] theorem defsOf_use (use : U) (rest : List (Met K V U)) : defsOf (.use use :: rest) = defsOf rest := rfl

@[simp] theorem defsOf_failure (rest : List (Met K V U)) : defsOf (.failure :: rest) = defsOf rest := rfl

theorem mem_defsOf {met : List (Met K V U)} {key : K} {value : V} :
    (key, value) ∈ defsOf met ↔ .define key value ∈ met := by
  rw [defsOf, List.mem_filterMap]
  constructor
  · rintro ⟨item, mem, eq⟩
    cases item with
    | define k v =>
      simp only [Option.some.injEq, Prod.mk.injEq] at eq
      exact eq.1 ▸ eq.2 ▸ mem
    | use u => cases eq
    | failure => cases eq
  · exact fun mem => ⟨_, mem, rfl⟩

end Met

namespace Linker

section
variable [DecidableEq K] [DecidableEq S] (linker : Linker K V U P S M)

/-- Links what was kept for a key. -/
def patch (pending : List (P × K)) (key : K) (value : V) (links : S → M) : Option (S → M) :=
  pending.foldlM (fun links e =>
    if e.2 = key then
      (linker.later e.1 value).map fun link =>
        Function.update links (linker.keptSlot e.1) (link (links (linker.keptSlot e.1)))
    else some links) links

def define (key : K) (value : V) (s : Linking K V P S M) : Option (Linking K V P S M) :=
  if (s.defs.lookup key).isSome then none
  else (linker.patch s.pending key value s.links).map fun links =>
    { s with defs := s.defs ++ [(key, value)], links := links }

def wait (use : U) (s : Linking K V P S M) : Linking K V P S M :=
  { s with pending := s.pending ++ [(linker.keep use, linker.key use)] }

def link (use : U) (s : Linking K V P S M) : Option (Linking K V P S M) :=
  match s.defs.lookup (linker.key use) with
  | none => some (linker.wait use s)
  | some value =>
    match linker.now use value with
    | none => none
    | some none => some (linker.wait use s)
    | some (some f) =>
      some { s with links := Function.update s.links (linker.slot use) (f (s.links (linker.slot use))) }

def step (s : Linking K V P S M) : Met K V U → Option (Linking K V P S M)
  | .define key value => linker.define key value s
  | .use use => linker.link use s
  | .failure => none

def run (met : List (Met K V U)) (s : Linking K V P S M) : Option (Linking K V P S M) := met.foldlM linker.step s

/-- What is done to the slot of a use, with the definitions before it and those after it. -/
def linkOf (use : U) (before after : List (K × V)) : Option (M → M) :=
  match before.lookup (linker.key use) with
  | some value => (linker.now use value).join
  | none => (after.lookup (linker.key use)).bind (linker.later (linker.keep use))

/-- Nothing fails. -/
def Fits (use : U) (before after : List (K × V)) : Prop :=
  match before.lookup (linker.key use) with
  | some value => linker.now use value ≠ none
  | none => ∀ value, after.lookup (linker.key use) = some value → linker.later (linker.keep use) value ≠ none

variable {linker} {s t : Linking K V P S M} {met : List (Met K V U)} {slot : S}

/-- All slots can be patched exactly if the value suits each use that waits for it. -/
theorem patch_isSome_iff {pending : List (P × K)} {key : K} {value : V} {links : S → M} :
    (linker.patch pending key value links).isSome ↔
      ∀ e ∈ pending, e.2 = key → (linker.later e.1 value).isSome := by
  induction pending generalizing links with
  | nil => simp [patch]
  | cons e rest ih =>
    simp only [patch, List.foldlM_cons, Option.bind_eq_bind, List.forall_mem_cons] at ih ⊢
    by_cases here : e.2 = key
    · cases linked : linker.later e.1 value with
      | none => simp [here]
      | some f => simpa [here, linked] using ih
    · simpa [here] using ih

/-- A slot is patched by what is kept for it under the key, in this order. -/
theorem patch_links {pending : List (P × K)} {key : K} {value : V} {links links' : S → M}
    (patched : linker.patch pending key value links = some links') (slot : S) :
    links' slot = (pending.filter fun e => linker.keptSlot e.1 = slot ∧ e.2 = key).foldl
      (fun m e => (linker.later e.1 value).elim m (· m)) (links slot) := by
  induction pending generalizing links with
  | nil =>
    simp only [patch, List.foldlM_nil, Option.pure_def, Option.some.injEq] at patched
    rw [← patched]
    rfl
  | cons e rest ih =>
    simp only [patch, List.foldlM_cons, Option.bind_eq_bind] at ih patched
    by_cases here : e.2 = key
    · cases linked : linker.later e.1 value with
      | none => simp [here, linked] at patched
      | some f =>
        simp only [here, if_true, linked, Option.map_some, Option.bind_some] at patched
        rw [ih patched]
        by_cases own : linker.keptSlot e.1 = slot
        · simp [own, here, linked]
        · simp [own, Function.update_of_ne (Ne.symm own)]
    · simp only [here, if_false, Option.bind_some] at patched
      rw [ih patched]
      simp [here]

/-- A definition is new, and patches what waits for it. -/
theorem define_eq_some {key : K} {value : V} (defined : linker.define key value s = some t) :
    s.defs.lookup key = none ∧ ∃ links, linker.patch s.pending key value s.links = some links ∧
      t = { s with defs := s.defs ++ [(key, value)], links := links } := by
  rw [define] at defined
  split at defined
  · cases defined
  · next unused =>
    obtain ⟨links, patched, rfl⟩ := Option.map_eq_some_iff.mp defined
    exact ⟨Option.not_isSome_iff_eq_none.mp unused, links, patched, rfl⟩

/-- A use waits, or its slot is linked with the value that is known. -/
theorem link_eq_some {use : U} (linked : linker.link use s = some t) :
    (t = linker.wait use s ∧ ∀ value, s.defs.lookup (linker.key use) = some value → linker.now use value = some none) ∨
    ∃ value f, s.defs.lookup (linker.key use) = some value ∧ linker.now use value = some (some f) ∧
      t = { s with links := Function.update s.links (linker.slot use) (f (s.links (linker.slot use))) } := by
  rw [link] at linked
  split at linked
  · next unknown =>
    refine .inl ⟨(Option.some.inj linked).symm, fun value known => ?_⟩
    rw [unknown] at known
    cases known
  · next value known =>
    split at linked
    · cases linked
    · next useless =>
      refine .inl ⟨(Option.some.inj linked).symm, fun other also => ?_⟩
      rwa [← Option.some.inj (known.symm.trans also)]
    · next f useful => exact .inr ⟨value, f, known, useful, (Option.some.inj linked).symm⟩

theorem run_cons {item : Met K V U} {rest : List (Met K V U)} :
    linker.run (item :: rest) s = (linker.step s item).bind (linker.run rest) := rfl

theorem run_append {before after : List (Met K V U)} :
    linker.run (before ++ after) s = (linker.run before s).bind (linker.run after) := by
  rw [run, List.foldlM_append]
  rfl

theorem run_flatMap {ι : Type*} (items : ι → List (Met K V U)) (parts : List ι) :
    linker.run (parts.flatMap items) s = parts.foldlM (fun s i => linker.run (items i) s) s := by
  induction parts generalizing s with
  | nil => rfl
  | cons i rest ih =>
    rw [List.flatMap_cons, run_append, List.foldlM_cons]
    exact Option.bind_congr fun t _ => ih

theorem defs_step {item : Met K V U} (stepped : linker.step s item = some t) :
    t.defs = s.defs ++ Met.defsOf [item] := by
  cases item with
  | define key value =>
    obtain ⟨-, links, -, rfl⟩ := define_eq_some stepped
    rfl
  | use use =>
    obtain ⟨rfl, -⟩ | ⟨value, f, -, -, rfl⟩ := link_eq_some stepped
    · exact (List.append_nil _).symm
    · exact (List.append_nil _).symm
  | failure => cases stepped

/-- What is defined in a run is added. -/
theorem defs_run (ran : linker.run met s = some t) : t.defs = s.defs ++ Met.defsOf met := by
  induction met generalizing s with
  | nil =>
    rw [← Option.some.inj ran]
    exact (List.append_nil _).symm
  | cons item rest ih =>
    rw [run_cons] at ran
    obtain ⟨u, stepped, ran⟩ := Option.bind_eq_some_iff.mp ran
    rw [ih ran, defs_step stepped, List.append_assoc, ← Met.defsOf_append]
    rfl

/-- What is kept for a slot. -/
def keptFor (linker : Linker K V U P S M) (slot : S) (s : Linking K V P S M) : List (P × K) :=
  s.pending.filter fun e => linker.keptSlot e.1 = slot

/-- A slot that no use met is for changes by what is kept for it. -/
theorem step_other {item : Met K V U} (stepped : linker.step s item = some t)
    (other : ∀ use, item = .use use → linker.slot use ≠ slot) :
    linker.keptFor slot t = linker.keptFor slot s ∧
      (linker.keptFor slot s = [] → t.links slot = s.links slot) ∧
      ∀ p key, linker.keptFor slot s = [(p, key)] → t.links slot =
        (((Met.defsOf [item]).lookup key).bind (linker.later p)).elim (s.links slot) (· (s.links slot)) := by
  cases item with
  | define key value =>
    obtain ⟨-, links, patched, rfl⟩ := define_eq_some stepped
    have changed := patch_links patched slot
    have split : (s.pending.filter fun e => linker.keptSlot e.1 = slot ∧ e.2 = key) =
        (linker.keptFor slot s).filter fun e => e.2 = key := by
      rw [keptFor, List.filter_filter]
      exact List.filter_congr fun e _ => by simp [and_comm]
    rw [split] at changed
    refine ⟨rfl, fun none => by rw [none] at changed; exact changed, fun p k one => ?_⟩
    rw [one] at changed
    by_cases same : k = key
    · subst same
      simpa using changed
    · simpa [same, List.lookup_cons, beq_false_of_ne same] using changed
  | use use =>
    have apart := other use rfl
    obtain ⟨rfl, -⟩ | ⟨value, f, -, -, rfl⟩ := link_eq_some stepped
    · refine ⟨?_, fun _ => rfl, fun _ _ _ => rfl⟩
      simp [keptFor, wait, linker.keptSlot_keep, apart]
    · have kept : Function.update s.links (linker.slot use) (f (s.links (linker.slot use))) slot = s.links slot :=
        Function.update_of_ne (Ne.symm apart) _ _
      exact ⟨rfl, fun _ => kept, fun _ _ _ => kept⟩
  | failure => cases stepped

/-- The same for a run, in which each key is defined once. -/
theorem run_other (ran : linker.run met s = some t) (other : ∀ use, .use use ∈ met → linker.slot use ≠ slot)
    (once : ((Met.defsOf met).map (·.1)).Nodup) :
    linker.keptFor slot t = linker.keptFor slot s ∧
      (linker.keptFor slot s = [] → t.links slot = s.links slot) ∧
      ∀ p key, linker.keptFor slot s = [(p, key)] → t.links slot =
        (((Met.defsOf met).lookup key).bind (linker.later p)).elim (s.links slot) (· (s.links slot)) := by
  induction met generalizing s with
  | nil =>
    obtain rfl := Option.some.inj ran
    exact ⟨rfl, fun _ => rfl, fun _ _ _ => rfl⟩
  | cons item rest ih =>
    rw [run_cons] at ran
    obtain ⟨u, stepped, ran⟩ := Option.bind_eq_some_iff.mp ran
    have here : ∀ use, item = .use use → linker.slot use ≠ slot := fun use eq => other use (eq ▸ List.mem_cons_self)
    have onItem := step_other stepped here
    have split : Met.defsOf (item :: rest) = Met.defsOf [item] ++ Met.defsOf rest := Met.defsOf_append [item] rest
    rw [split, List.map_append] at once
    have onRest := ih ran (fun use mem => other use (List.mem_cons_of_mem _ mem)) (List.nodup_append.mp once).2.1
    refine ⟨onRest.1.trans onItem.1, fun none => ?_, fun p key one => ?_⟩
    · rw [onRest.2.1 (onItem.1.trans none), onItem.2.1 none]
    · rw [onRest.2.2 p key (onItem.1.trans one), onItem.2.2 p key one, split, List.lookup_append]
      cases here : (Met.defsOf [item]).lookup key with
      | none => rfl
      | some value =>
        -- the key is not defined a second time
        have unused : (Met.defsOf rest).lookup key = none := by
          rw [List.lookup_eq_none_iff]
          intro d mem
          have first : key ∈ (Met.defsOf [item]).map (·.1) := by
            obtain ⟨l₁, l₂, eq, -⟩ := List.lookup_eq_some_iff.mp here
            rw [eq]
            simp
          exact bne_iff_ne.mpr fun same =>
            (List.nodup_append.mp once).2.2 key first d.1 (List.mem_map_of_mem mem) same
        rw [unused]
        rfl

/-- The slot of a use that shares it with no other: what came first decides. -/
theorem link_of_run {before after : List (Met K V U)} {use : U} (starts : s.Starts)
    (ran : linker.run (before ++ .use use :: after) s = some t)
    (apart : ∀ other, .use other ∈ before ++ after → linker.slot other ≠ linker.slot use)
    (once : ((Met.defsOf (before ++ after)).map (·.1)).Nodup) :
    t.links (linker.slot use) =
      (linker.linkOf use (Met.defsOf before) (Met.defsOf after)).elim (s.links (linker.slot use))
        (· (s.links (linker.slot use))) := by
  rw [run_append] at ran
  obtain ⟨u, first, ran⟩ := Option.bind_eq_some_iff.mp ran
  rw [run_cons] at ran
  obtain ⟨w, linked, rest⟩ := Option.bind_eq_some_iff.mp ran
  rw [Met.defsOf_append, List.map_append] at once
  have nothing : linker.keptFor (linker.slot use) s = [] := by rw [keptFor, starts.pending]; rfl
  have apartBefore : ∀ other, .use other ∈ before → linker.slot other ≠ linker.slot use :=
    fun other mem => apart other (List.mem_append_left _ mem)
  have apartAfter : ∀ other, .use other ∈ after → linker.slot other ≠ linker.slot use :=
    fun other mem => apart other (List.mem_append_right _ mem)
  have onFirst := run_other first apartBefore (List.nodup_append.mp once).1
  have onRest := run_other rest apartAfter (List.nodup_append.mp once).2.1
  have defs : u.defs = Met.defsOf before := by rw [defs_run first, starts.defs]; rfl
  have kept := onFirst.1.trans nothing
  rw [← onFirst.2.1 nothing]
  obtain ⟨rfl, unlinked⟩ | ⟨value, f, known, useful, rfl⟩ := link_eq_some linked
  · have waiting : linker.keptFor (linker.slot use) (linker.wait use u) = [(linker.keep use, linker.key use)] := by
      rw [keptFor] at kept ⊢
      simp [wait, kept, linker.keptSlot_keep]
    rw [onRest.2.2 _ _ waiting, linkOf]
    rw [defs] at unlinked
    cases known : (Met.defsOf before).lookup (linker.key use) with
    | none => rfl
    | some value =>
      have unused : (Met.defsOf after).lookup (linker.key use) = none := by
        rw [List.lookup_eq_none_iff]
        obtain ⟨l₁, l₂, eq, -⟩ := List.lookup_eq_some_iff.mp known
        exact fun d mem => bne_iff_ne.mpr fun same =>
          (List.nodup_append.mp once).2.2 (linker.key use) (by rw [eq]; simp) d.1 (List.mem_map_of_mem mem) same
      rw [unused]
      simp [unlinked value known, wait]
  · have linkedNow := onRest.2.1 kept
    rw [linkedNow, linkOf, ← defs, known]
    simp [useful]

/-- A place in a list with one more is the last one, or was there before. -/
theorem concat_eq_split_iff {α : Type*} {items before after : List α} {item x : α} :
    items ++ [item] = before ++ x :: after ↔
      (after = [] ∧ items = before ∧ item = x) ∨ ∃ rest, after = rest ++ [item] ∧ items = before ++ x :: rest := by
  constructor
  · intro eq
    obtain rfl | ⟨rest, y, rfl⟩ := List.eq_nil_or_concat after
    · obtain ⟨rfl, last⟩ := List.append_inj' eq rfl
      exact .inl ⟨rfl, rfl, List.singleton_inj.mp last⟩
    · rw [List.concat_eq_append, ← List.cons_append, ← List.append_assoc] at eq
      obtain ⟨rfl, last⟩ := List.append_inj' eq rfl
      obtain rfl := List.singleton_inj.mp last
      exact .inr ⟨rest, List.concat_eq_append, rfl⟩
  · rintro (⟨rfl, rfl, rfl⟩ | ⟨rest, rfl, rfl⟩)
    · rfl
    · simp

/-- What is kept at the end. -/
theorem mem_pending_run (starts : s.Starts) (ran : linker.run met s = some t) {p : P} {key : K} :
    (p, key) ∈ t.pending ↔ ∃ before use after, met = before ++ .use use :: after ∧ linker.keep use = p ∧
      linker.key use = key ∧ ∀ value, (Met.defsOf before).lookup key = some value → linker.now use value = some none := by
  induction met using List.reverseRecOn generalizing t with
  | nil =>
    obtain rfl := Option.some.inj ran
    simp [starts.pending]
  | append_singleton items item ih =>
    rw [run_append] at ran
    obtain ⟨u, first, last⟩ := Option.bind_eq_some_iff.mp ran
    rw [run_cons] at last
    obtain ⟨w, stepped, last⟩ := Option.bind_eq_some_iff.mp last
    obtain rfl := Option.some.inj last
    have split : (∃ before use after, items ++ [item] = before ++ .use use :: after ∧ linker.keep use = p ∧
        linker.key use = key ∧
          ∀ value, (Met.defsOf before).lookup key = some value → linker.now use value = some none) ↔
        (p, key) ∈ u.pending ∨ ∃ use, item = .use use ∧ linker.keep use = p ∧ linker.key use = key ∧
          ∀ value, u.defs.lookup key = some value → linker.now use value = some none := by
      rw [ih first, defs_run first, starts.defs, List.nil_append]
      constructor
      · rintro ⟨before, use, after, eq, what⟩
        obtain ⟨rfl, rfl, rfl⟩ | ⟨rest, rfl, rfl⟩ := concat_eq_split_iff.mp eq
        · exact .inr ⟨use, rfl, what⟩
        · exact .inl ⟨before, use, rest, rfl, what⟩
      · rintro (⟨before, use, after, rfl, what⟩ | ⟨use, rfl, what⟩)
        · exact ⟨before, use, after ++ [item], by simp, what⟩
        · exact ⟨items, use, [], rfl, what⟩
    rw [split]
    cases item with
    | define k value =>
      obtain ⟨-, links, -, rfl⟩ := define_eq_some stepped
      simp
    | use use =>
      obtain ⟨rfl, unlinked⟩ | ⟨value, f, known, useful, rfl⟩ := link_eq_some stepped
      · simp only [wait, List.mem_append, List.mem_singleton, Prod.mk.injEq, Met.use.injEq]
        refine or_congr_right ⟨?_, ?_⟩
        · rintro ⟨rfl, rfl⟩
          exact ⟨use, rfl, rfl, rfl, unlinked⟩
        · rintro ⟨_, rfl, rfl, rfl, -⟩
          exact ⟨rfl, rfl⟩
      · refine ⟨.inl, fun kept => kept.resolve_right ?_⟩
        rintro ⟨_, ⟨⟩, -, rfl, unlinked⟩
        have both := useful.symm.trans (unlinked value known)
        cases both
    | failure => cases stepped

omit [DecidableEq S] in
/-- A use fits with one more definition if it did without it and that one suits it when it is the first. -/
theorem fits_concat {use : U} {before after : List (K × V)} {key : K} {value : V} :
    linker.Fits use before (after ++ [(key, value)]) ↔ linker.Fits use before after ∧
      ((before ++ after).lookup (linker.key use) = none → linker.key use = key →
        linker.later (linker.keep use) value ≠ none) := by
  rw [Fits, Fits, List.lookup_append, List.lookup_append]
  cases before.lookup (linker.key use) with
  | some known => simp
  | none =>
    cases after.lookup (linker.key use) with
    | some known => simp
    | none =>
      by_cases same : linker.key use = key
      · simp [same]
      · simp [same, List.lookup_cons, beq_false_of_ne same]

/-- A run goes one further exactly if its last step can be taken. -/
theorem run_concat_isSome_iff {items : List (Met K V U)} {item : Met K V U} :
    (linker.run (items ++ [item]) s).isSome ↔ ∃ t, linker.run items s = some t ∧ (linker.step t item).isSome := by
  rw [run_append]
  cases linker.run items s with
  | none => simp
  | some t =>
    rw [Option.bind_some, run_cons]
    cases stepped : linker.step t item <;> simp [run, stepped]

/-- A use can be linked exactly if it fits what is defined. -/
theorem link_isSome_iff {use : U} : (linker.link use s).isSome ↔ linker.Fits use s.defs [] := by
  rw [link, Fits]
  cases s.defs.lookup (linker.key use) with
  | none => simp
  | some value =>
    cases done : linker.now use value with
    | none => simp [done]
    | some found => cases found <;> simp [done]

/-- A definition can be met exactly if it is new and suits what waits for it. -/
theorem define_isSome_iff {key : K} {value : V} : (linker.define key value s).isSome ↔
    s.defs.lookup key = none ∧ ∀ e ∈ s.pending, e.2 = key → (linker.later e.1 value).isSome := by
  rw [define]
  cases s.defs.lookup key with
  | none => simpa using patch_isSome_iff
  | some value => simp

/-- When a run gets through. -/
theorem run_isSome_iff (starts : s.Starts) :
    (linker.run met s).isSome ↔ .failure ∉ met ∧ ((Met.defsOf met).map (·.1)).Nodup ∧
      ∀ before use after, met = before ++ .use use :: after → linker.Fits use (Met.defsOf before) (Met.defsOf after) := by
  induction met using List.reverseRecOn with
  | nil => simp [run]
  | append_singleton items item ih =>
    rw [run_concat_isSome_iff]
    constructor
    · rintro ⟨t, ran, stepped⟩
      obtain ⟨noFailure, once, fits⟩ := ih.mp (Option.isSome_of_eq_some ran)
      have defs : t.defs = Met.defsOf items := by rw [defs_run ran, starts.defs]; rfl
      cases item with
      | failure => cases stepped
      | use use =>
        refine ⟨by simpa using noFailure, by simpa using once, fun before other after eq => ?_⟩
        obtain ⟨rfl, rfl, same⟩ | ⟨rest, rfl, rfl⟩ := concat_eq_split_iff.mp eq
        · cases same
          exact defs ▸ link_isSome_iff.mp stepped
        · simpa using fits before other rest rfl
      | define key value =>
        obtain ⟨unused, patches⟩ := define_isSome_iff.mp stepped
        rw [defs] at unused
        refine ⟨by simpa using noFailure, ?_, fun before other after eq => ?_⟩
        · rw [Met.defsOf_append, List.map_append]
          refine List.nodup_append.mpr ⟨once, List.pairwise_singleton _ _, ?_⟩
          rintro k mem _ (_ | ⟨_, ⟨⟩⟩) rfl
          obtain ⟨d, mem, same⟩ := List.mem_map.mp mem
          exact bne_iff_ne.mp (List.lookup_eq_none_iff.mp unused d mem) same.symm
        · obtain ⟨rfl, rfl, ⟨⟩⟩ | ⟨rest, rfl, rfl⟩ := concat_eq_split_iff.mp eq
          rw [Met.defsOf_append]
          refine fits_concat.mpr ⟨fits before other rest rfl, fun unknown same => ?_⟩
          -- the use waits for this key
          have waits : (linker.keep other, key) ∈ t.pending := by
            refine (mem_pending_run starts ran).mpr ⟨before, other, rest, rfl, rfl, same, fun value known => ?_⟩
            rw [List.lookup_append, same, known] at unknown
            cases unknown
          exact Option.isSome_iff_ne_none.mp (patches _ waits rfl)
    · rintro ⟨noFailure, once, fits⟩
      rw [Met.defsOf_append, List.map_append] at once
      have started : (linker.run items s).isSome := by
        refine ih.mpr ⟨fun mem => noFailure (List.mem_append_left _ mem), (List.nodup_append.mp once).1, ?_⟩
        rintro before use after rfl
        have whole := fits before use (after ++ [item]) (by simp)
        cases item with
        | failure => simpa using whole
        | use other => simpa using whole
        | define key value =>
          rw [Met.defsOf_append] at whole
          exact (fits_concat.mp whole).1
      obtain ⟨t, ran⟩ := Option.isSome_iff_exists.mp started
      have defs : t.defs = Met.defsOf items := by rw [defs_run ran, starts.defs]; rfl
      refine ⟨t, ran, ?_⟩
      cases item with
      | failure => simp at noFailure
      | use use => exact link_isSome_iff.mpr (defs ▸ fits items use [] rfl)
      | define key value =>
        have unused : t.defs.lookup key = none := by
          rw [defs, List.lookup_eq_none_iff]
          exact fun d mem => bne_iff_ne.mpr fun same =>
            (List.nodup_append.mp once).2.2 d.1 (List.mem_map_of_mem mem) key (by simp) same.symm
        refine define_isSome_iff.mpr ⟨unused, fun e mem same => ?_⟩
        obtain ⟨p, k⟩ := e
        obtain rfl : k = key := same
        obtain ⟨before, use, after, rfl, rfl, rfl, -⟩ := (mem_pending_run starts ran).mp mem
        have whole := fits before use (after ++ [.define (linker.key use) value]) (by simp)
        rw [Met.defsOf_append] at whole
        refine Option.isSome_iff_ne_none.mpr ((fits_concat.mp whole).2 ?_ rfl)
        simpa [defs] using unused

end

end Linker

end FaasNet.Lib
