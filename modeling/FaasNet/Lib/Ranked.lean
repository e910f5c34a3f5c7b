import Mathlib.Data.List.Sort
import Mathlib.Data.List.TakeWhile

/-!
# Queries over a list ordered by rank

The first element of a list, highest rank first, that meets a condition; and the first of each group
of elements with the same key. An answer of the first kind is an element of highest rank among those
that meet the condition, and any such element is the answer for some order of the list. Nothing here
depends on what the elements are.
-/

namespace FaasNet.Lib

section
variable {α κ ρ : Type*} [LinearOrder ρ]

/-- The elements of highest rank come first; those of the same rank stay in their order. -/
def descending (rank : α → ρ) (l : List α) : List α := l.insertionSort fun a b => rank b ≤ rank a

@[simp] theorem mem_descending {rank : α → ρ} {l : List α} {a : α} : a ∈ descending rank l ↔ a ∈ l :=
  List.mem_insertionSort _

/-- Higher ranks come first. -/
theorem pairwise_descending (rank : α → ρ) (l : List α) :
    (descending rank l).Pairwise fun a b => rank b ≤ rank a := by
  have : IsTrans α fun a b => rank b ≤ rank a := ⟨fun _ _ _ ab bc => bc.trans ab⟩
  have : Std.Total fun a b : α => rank b ≤ rank a := ⟨fun a b => le_total (rank b) (rank a)⟩
  exact List.pairwise_insertionSort _ l

/-- `a` meets the condition and nothing that does has a higher rank. -/
structure IsHighest (rank : α → ρ) (p : α → Bool) (l : List α) (a : α) : Prop where
  mem : a ∈ l
  holds : p a
  highest : ∀ b ∈ l, p b → rank b ≤ rank a

/-- What is found first has the highest rank. -/
theorem isHighest_of_find? {rank : α → ρ} {p : α → Bool} {l : List α} {a : α}
    (found : (descending rank l).find? p = some a) : IsHighest rank p l a := by
  obtain ⟨holds, before, after, split, others⟩ := List.find?_eq_some_iff_append.mp found
  have member : a ∈ descending rank l := by rw [split]; simp
  refine ⟨mem_descending.mp member, holds, fun b inside meets => ?_⟩
  have inside : b ∈ before ++ a :: after := by rwa [← split, mem_descending]
  have ordered := pairwise_descending rank l
  rw [split] at ordered
  rcases List.mem_append.mp inside with early | late
  · simpa [meets] using others b early
  · rcases List.mem_cons.mp late with rfl | later
    · exact le_rfl
    · exact List.rel_of_pairwise_cons (List.pairwise_append.mp ordered).2.1 later

/-- Nothing is found exactly if there is nothing. -/
theorem find?_descending_eq_none {rank : α → ρ} {p : α → Bool} {l : List α} :
    (descending rank l).find? p = none ↔ ∀ a ∈ l, ¬ p a := by
  simp [List.find?_eq_none]

/-- Whatever meets the condition, something of highest rank is found. -/
theorem find?_descending_of_mem (rank : α → ρ) (p : α → Bool) {l : List α} {a : α} (mem : a ∈ l) (holds : p a) :
    ∃ b, (descending rank l).find? p = some b ∧ IsHighest rank p l b := by
  cases found : (descending rank l).find? p with
  | none => exact absurd holds (find?_descending_eq_none.mp found a mem)
  | some b => exact ⟨b, rfl, isHighest_of_find? found⟩

/-- An element of highest rank is found when it is the first one of the list. -/
theorem find?_descending_cons {rank : α → ρ} {p : α → Bool} {l : List α} {a : α}
    (highest : IsHighest rank p (a :: l) a) : (descending rank (a :: l)).find? p = some a := by
  rw [descending, List.insertionSort_cons_eq_take_drop, List.find?_eq_some_iff_append]
  refine ⟨highest.holds, _, _, rfl, fun b early => ?_⟩
  have above : ¬ rank b ≤ rank a := by simpa using List.mem_takeWhile_imp early
  have inside : b ∈ l := mem_descending.mp ((List.takeWhile_sublist _).subset early)
  have misses : ¬ p b := fun meets => above (highest.highest b (List.mem_cons_of_mem a inside) meets)
  simpa using misses

/-- What has the highest rank is found first in some order. -/
theorem exists_perm_find? [DecidableEq α] {rank : α → ρ} {p : α → Bool} {l : List α} {a : α}
    (highest : IsHighest rank p l a) : ∃ l', l'.Perm l ∧ (descending rank l').find? p = some a := by
  have perm := (List.perm_cons_erase highest.mem).symm
  refine ⟨a :: l.erase a, perm, find?_descending_cons ⟨List.mem_cons_self, highest.holds, fun b inside => ?_⟩⟩
  exact highest.highest b (perm.subset inside)

/-- What is filtered out of an ordered list can be filtered out before. -/
theorem filter_orderedInsert (rank : α → ρ) (p : α → Bool) (a : α) {l : List α}
    (ordered : l.Pairwise fun a b => rank b ≤ rank a) :
    (l.orderedInsert (fun a b => rank b ≤ rank a) a).filter p =
      if p a then (l.filter p).orderedInsert (fun a b => rank b ≤ rank a) a else l.filter p := by
  induction l with
  | nil => cases meets : p a <;> simp [meets]
  | cons b l ih =>
    obtain ⟨above, tail⟩ := List.pairwise_cons.mp ordered
    by_cases le : rank b ≤ rank a
    · rw [List.orderedInsert_cons, if_pos le, List.filter_cons]
      split
      · -- `a` stands before `b`, and so before all that is left of `b :: l`
        cases left : (b :: l).filter p with
        | nil => rfl
        | cons c rest =>
          have inside : c ∈ b :: l := (List.mem_filter.mp (left ▸ List.mem_cons_self)).1
          have below : rank c ≤ rank a := by
            rcases List.mem_cons.mp inside with rfl | later
            · exact le
            · exact (above c later).trans le
          rw [List.orderedInsert_cons, if_pos below]
      · rfl
    · rw [List.orderedInsert_cons, if_neg le, List.filter_cons, List.filter_cons, ih tail]
      cases p b <;> cases p a <;> simp [le]

/-- The elements that meet a condition stay in their order. -/
theorem filter_descending (rank : α → ρ) (p : α → Bool) (l : List α) :
    (descending rank l).filter p = descending rank (l.filter p) := by
  induction l with
  | nil => rfl
  | cons a l ih =>
    have inserted := filter_orderedInsert rank p a (pairwise_descending rank l)
    rw [ih] at inserted
    rw [List.filter_cons]
    change ((descending rank l).orderedInsert _ a).filter p = _
    rw [inserted]
    cases p a <;> rfl

/-- Other elements are not found. -/
theorem find?_descending_append {rank : α → ρ} {p : α → Bool} {l others : List α} (none : ∀ a ∈ others, ¬ p a) :
    (descending rank (l ++ others)).find? p = (descending rank l).find? p := by
  have filtered : (l ++ others).filter p = l.filter p := by
    rw [List.filter_append, List.filter_eq_nil_iff.mpr none, List.append_nil]
  rw [← List.head?_filter, ← List.head?_filter, filter_descending, filter_descending, filtered]

/-- What is found is also found among the elements of another condition that it meets. -/
theorem find?_descending_filter_of_holds {rank : α → ρ} {p q : α → Bool} {l : List α} {a : α}
    (found : (descending rank l).find? p = some a) (holds : q a) : (descending rank (l.filter q)).find? p = some a := by
  obtain ⟨meets, before, after, split, others⟩ := List.find?_eq_some_iff_append.mp found
  rw [← filter_descending, split, List.filter_append, List.filter_cons_of_pos holds]
  exact List.find?_eq_some_iff_append.mpr ⟨meets, _, _, rfl, fun b inside => others b (List.mem_of_mem_filter inside)⟩

/-- What is not asked for can be left out. -/
theorem find?_descending_filter (rank : α → ρ) {p q : α → Bool} (narrower : ∀ a, p a → q a) (l : List α) :
    (descending rank (l.filter q)).find? p = (descending rank l).find? p := by
  have both : (fun a => decide (q a ∧ p a)) = p := by
    funext a
    cases asked : p a with
    | false => simp
    | true => simp [narrower a asked]
  rw [← filter_descending, List.find?_filter, both]

theorem head?_descending_cons (rank : α → ρ) (a : α) (l : List α) :
    (descending rank (a :: l)).head? =
      some ((descending rank l).head?.elim a fun b => if rank b ≤ rank a then a else b) := by
  show ((descending rank l).orderedInsert _ a).head? = _
  cases descending rank l with
  | nil => rfl
  | cons b rest =>
    rw [List.orderedInsert_cons]
    by_cases below : rank b ≤ rank a <;> simp [below]

theorem head?_descending_concat (rank : α → ρ) (l : List α) (a : α) :
    (descending rank (l ++ [a])).head? =
      some ((descending rank l).head?.elim a fun b => if rank b < rank a then a else b) := by
  induction l with
  | nil => rfl
  | cons c l ih =>
    rw [List.cons_append, head?_descending_cons, ih, head?_descending_cons]
    cases (descending rank l).head? with
    | none =>
      simp only [Option.elim_none, Option.elim_some, Option.some_inj]
      split_ifs with below above
      · exact absurd above (not_lt.mpr below)
      · rfl
      · rfl
      · exact absurd (not_le.mp below) (by assumption)
    | some b =>
      simp only [Option.elim_some, Option.some_inj]
      grind

/-- The first element that is asked for, when one more is added at the end: the new one if it is asked
for and nothing of its rank or higher was there. -/
theorem find?_descending_concat (rank : α → ρ) (p : α → Bool) (l : List α) (a : α) :
    (descending rank (l ++ [a])).find? p =
      if p a then some (((descending rank l).find? p).elim a fun b => if rank b < rank a then a else b)
      else (descending rank l).find? p := by
  split
  next asked =>
    rw [← List.head?_filter, ← List.head?_filter, filter_descending, filter_descending, List.filter_append]
    rw [show [a].filter p = [a] by simp [asked], head?_descending_concat]
  next other => exact find?_descending_append fun b inside => by rwa [List.mem_singleton.mp inside]

/-! ## The first of each group -/

variable [DecidableEq κ]

/-- The first element with each key. -/
def firstOfEach (key : α → κ) (l : List α) : List α :=
  (l.map key).eraseDups.filterMap fun k => l.find? fun a => key a = k

/-- The first of each group is the first with its key. -/
theorem mem_firstOfEach {key : α → κ} {l : List α} {a : α} :
    a ∈ firstOfEach key l ↔ (l.find? fun b => key b = key a) = some a := by
  simp only [firstOfEach, List.mem_filterMap, List.mem_eraseDups, List.mem_map]
  constructor
  · rintro ⟨k, _, found⟩
    have same : key a = k := by simpa using List.find?_some found
    rwa [same]
  · intro found
    exact ⟨key a, ⟨a, List.mem_of_find?_eq_some found, rfl⟩, found⟩

theorem nodup_eraseDups (l : List κ) : l.eraseDups.Nodup := by
  match l with
  | [] => simp
  | k :: l =>
    have tail := nodup_eraseDups (l.filter fun b => !b == k)
    rw [List.eraseDups_cons]
    exact List.nodup_cons.mpr ⟨by simp [List.mem_eraseDups], tail⟩
termination_by l.length
decreasing_by
  have := List.length_filter_le (fun b => !b == k) l
  simp only [List.length_cons]
  omega

/-- There is one element for each key. -/
theorem map_key_firstOfEach (key : α → κ) (l : List α) : (firstOfEach key l).map key = (l.map key).eraseDups := by
  rw [firstOfEach, List.map_filterMap]
  have each : ∀ k ∈ (l.map key).eraseDups, ((l.find? fun a => key a = k).map key) = some k := by
    intro k member
    obtain ⟨a, inside, rfl⟩ := List.mem_map.mp (List.mem_eraseDups.mp member)
    cases found : l.find? fun b => key b = key a with
    | none => simpa using List.find?_eq_none.mp found a inside
    | some b => simpa using List.find?_some found
  rw [List.filterMap_congr each, List.filterMap_some]

/-- The first element is the first of its group. -/
theorem firstOfEach_cons (key : α → κ) (a : α) (l : List α) :
    firstOfEach key (a :: l) = a :: firstOfEach key (l.filter fun b => key b ≠ key a) := by
  have others : (l.map key).filter (fun k => !k == key a) = (l.filter fun b => key b ≠ key a).map key := by
    rw [List.filter_map]
    congr 1
    refine List.filter_congr fun b _ => ?_
    by_cases same : key b = key a <;> simp [same]
  rw [firstOfEach, List.map_cons, List.eraseDups_cons, others, List.filterMap_cons]
  simp only [List.find?_cons, decide_true]
  congr 1
  refine List.filterMap_congr fun k member => ?_
  obtain ⟨b, inside, rfl⟩ := List.mem_map.mp (List.mem_eraseDups.mp member)
  have different : key b ≠ key a := by simpa using (List.mem_filter.mp inside).2
  have narrow : (fun c => decide (decide (key c ≠ key a) = true ∧ decide (key c = key b) = true)) =
      fun c => decide (key c = key b) := by
    funext c
    by_cases same : key c = key b <;> simp [same, different]
  rw [List.find?_filter, narrow]
  simp [different.symm]

/-- A condition on the key chooses groups. -/
theorem filter_firstOfEach (key : α → κ) (p : κ → Bool) (l : List α) :
    (firstOfEach key l).filter (fun a => p (key a)) = firstOfEach key (l.filter fun a => p (key a)) := by
  match l with
  | [] => rfl
  | a :: l =>
    have rest := filter_firstOfEach key p (l.filter fun b => key b ≠ key a)
    rw [firstOfEach_cons, List.filter_cons, List.filter_cons, rest, List.filter_filter]
    split
    next asked =>
      rw [firstOfEach_cons, List.filter_filter]
      simp only [Bool.and_comm]
    next other =>
      congr 1
      refine List.filter_congr fun b _ => ?_
      by_cases same : key b = key a
      · simp [same, other]
      · simp [same]
termination_by l.length
decreasing_by
  have := List.length_filter_le (fun b => key b ≠ key a) l
  simp only [List.length_cons]
  omega

/-- Each group has one first element. -/
theorem nodup_map_key_firstOfEach (key : α → κ) (l : List α) : ((firstOfEach key l).map key).Nodup := by
  rw [map_key_firstOfEach]
  exact nodup_eraseDups _

/-! ## The last element and the highest one

A store that overwrites answers with the element written last, one that keeps everything with one of
highest rank. The two answer alike, for every order the second may keep its elements in, when the last
one is the only one of highest rank. -/

/-- The last element that meets a condition. -/
def lastWith (p : α → Bool) (l : List α) : Option α := l.reverse.find? p

theorem lastWith_concat (p : α → Bool) (l : List α) (a : α) :
    lastWith p (l ++ [a]) = if p a then some a else lastWith p l := by
  rw [lastWith, List.reverse_concat, List.find?_cons]
  cases p a <;> rfl

theorem lastWith_eq_none {p : α → Bool} {l : List α} : lastWith p l = none ↔ ∀ a ∈ l, ¬ p a := by
  simp [lastWith, List.find?_eq_none]

theorem mem_of_lastWith {p : α → Bool} {l : List α} {a : α} (last : lastWith p l = some a) : a ∈ l :=
  List.mem_reverse.mp (List.mem_of_find?_eq_some last)

theorem holds_of_lastWith {p : α → Bool} {l : List α} {a : α} (last : lastWith p l = some a) : p a :=
  List.find?_some last

theorem lastWith_of_mem {p : α → Bool} {l : List α} {a : α} (mem : a ∈ l) (holds : p a) :
    ∃ last, lastWith p l = some last := by
  cases found : lastWith p l with
  | none => exact absurd holds (lastWith_eq_none.mp found a mem)
  | some last => exact ⟨last, rfl⟩

theorem lastWith_map {β : Type*} (f : β → α) (p : α → Bool) (l : List β) :
    lastWith p (l.map f) = (lastWith (p ∘ f) l).map f := by
  rw [lastWith, lastWith, ← List.map_reverse, List.find?_map]

/-- The last element that meets a condition is the last one that meets a narrower condition, if it does. -/
theorem lastWith_narrow {p q : α → Bool} {l : List α} {a : α} (last : lastWith p l = some a) (narrower : ∀ b, q b → p b)
    (meets : q a) : lastWith q l = some a := by
  obtain ⟨-, before, rest, split, others⟩ := List.find?_eq_some_iff_append.mp last
  refine List.find?_eq_some_iff_append.mpr ⟨meets, before, rest, split, fun b inside => ?_⟩
  have other := others b inside
  cases asked : q b with
  | false => rfl
  | true => simp [narrower b asked] at other

/-- A narrower condition finds the same element last exactly if that element meets it. -/
theorem lastWith_eq_narrow_iff {p q : α → Bool} {l : List α} (narrower : ∀ b, q b → p b) :
    lastWith p l = lastWith q l ↔ ∀ last ∈ lastWith p l, q last := by
  constructor
  · intro same last found
    rw [same] at found
    exact holds_of_lastWith found
  · intro meets
    cases found : lastWith p l with
    | none =>
      refine (lastWith_eq_none.mpr fun b inside asked => ?_).symm
      exact lastWith_eq_none.mp found b inside (narrower b asked)
    | some last => exact (lastWith_narrow found narrower (meets last found)).symm

/-- Every other element that meets the condition has a lower rank. -/
def AboveAll (rank : α → ρ) (p : α → Bool) (l : List α) (a : α) : Prop :=
  ∀ b ∈ l, p b → b = a ∨ rank b < rank a

/-- Whatever is found with the highest rank is the element above all others. -/
theorem AboveAll.eq_of_isHighest {rank : α → ρ} {p : α → Bool} {l : List α} {a b : α} (above : AboveAll rank p l a)
    (mem : a ∈ l) (holds : p a) (highest : IsHighest rank p l b) : b = a :=
  (above b highest.mem highest.holds).resolve_right (not_lt_of_ge (highest.highest a mem holds))

/-- An element that no order of the list replaces by another is above all others. -/
theorem aboveAll_of_perm [DecidableEq α] {rank : α → ρ} {p : α → Bool} {l : List α} {a : α}
    (highest : IsHighest rank p l a)
    (always : ∀ l', l'.Perm l → ∀ b, (descending rank l').find? p = some b → b = a) : AboveAll rank p l a := by
  intro b inside meets
  by_cases below : rank b < rank a
  · exact .inr below
  · have alsoHighest : IsHighest rank p l b :=
      ⟨inside, meets, fun c member holds => (highest.highest c member holds).trans (not_lt.mp below)⟩
    obtain ⟨l', perm, found⟩ := exists_perm_find? alsoHighest
    exact .inl (always l' perm b found)

/-- The last element written is one that is asked for, and above all others that are. -/
def LastIsHighest (rank : α → ρ) (written asked : α → Bool) (l : List α) : Prop :=
  ∀ last, lastWith written l = some last → asked last ∧ AboveAll rank asked l last

/-- What is found first, in whatever order the list was, is the last one exactly if the last one is the highest. -/
theorem find?_eq_lastWith_iff [DecidableEq α] {rank : α → ρ} {written asked : α → Bool} {l : List α}
    (own : ∀ a ∈ l, asked a → written a) :
    (∀ l', l'.Perm l → (descending rank l').find? asked = lastWith written l) ↔
      LastIsHighest rank written asked l := by
  constructor
  · intro agree last isLast
    have found := (agree l (.refl l)).trans isLast
    have highest := isHighest_of_find? found
    refine ⟨highest.holds, aboveAll_of_perm highest fun l' perm b other => ?_⟩
    exact Option.some_inj.mp (other.symm.trans ((agree l' perm).trans isLast))
  · intro inOrder l' perm
    cases isLast : lastWith written l with
    | none =>
      refine find?_descending_eq_none.mpr fun a inside asks => ?_
      have member := perm.subset inside
      exact lastWith_eq_none.mp isLast a member (own a member asks)
    | some last =>
      obtain ⟨asks, above⟩ := inOrder last isLast
      have above : AboveAll rank asked l' last := fun b inside => above b (perm.subset inside)
      have member : last ∈ l' := perm.symm.subset (mem_of_lastWith isLast)
      obtain ⟨b, found, highest⟩ := find?_descending_of_mem rank asked member asks
      rw [found, above.eq_of_isHighest member asks highest]

/-- The same for the last element written under each key, where one of each group is asked for. -/
structure LastOfEachIsHighest (rank : α → ρ) (group : α → κ) (asked : α → Bool) (l : List α) (key : κ) (last : α) :
    Prop where
  asks : asked last
  own : ∀ a ∈ l, asked a → group a = key → group last = key
  above : AboveAll rank (fun a => asked a ∧ group a = group last) l last

/-- An order of the elements asked for extends to an order of all of them. -/
theorem exists_perm_filter {asked : α → Bool} {l chosen : List α} (perm : chosen.Perm (l.filter asked)) :
    ∃ l' : List α, l'.Perm l ∧ l'.filter asked = chosen := by
  refine ⟨chosen ++ l.filter (fun a => !asked a), ?_, ?_⟩
  · exact (perm.append_right _).trans (List.filter_append_perm asked l)
  · have all : ∀ a ∈ chosen, asked a := fun a inside => (List.mem_filter.mp (perm.subset inside)).2
    have none : (l.filter fun a => !asked a).filter asked = [] := by simp [List.filter_filter]
    rw [List.filter_append, List.filter_eq_self.mpr all, none, List.append_nil]

section
variable {rank : α → ρ} {written : κ → α → Bool} {group : α → κ} {asked : α → Bool} {l : List α}

/-- If both ways agree in every order, the last one under each key is the highest of its group. -/
theorem lastOfEachIsHighest_of_agree [DecidableEq α]
    (shared : ∀ a key, asked a → written key a → group a ≠ key →
      ∀ b, asked b → written (group a) b → group b = group a)
    (agree : ∀ l' : List α, l'.Perm l → ∀ a, a ∈ firstOfEach group (descending rank (l'.filter asked)) ↔
      ∃ key, lastWith (written key) l = some a)
    {key : κ} {last : α} (isLast : lastWith (written key) l = some last) :
    LastOfEachIsHighest rank group asked l key last := by
  have found := mem_firstOfEach.mp ((agree l (.refl l) last).mpr ⟨key, isLast⟩)
  have highest := isHighest_of_find? found
  have asks : asked last := (List.mem_filter.mp highest.mem).2
  refine ⟨asks, fun a inside asksA same => ?_, ?_⟩
  · have member : a ∈ l.filter asked := List.mem_filter.mpr ⟨inside, asksA⟩
    obtain ⟨b, foundB, highestB⟩ :=
      find?_descending_of_mem rank (fun b => group b = key) member (decide_eq_true same)
    have groupB : group b = key := by simpa using highestB.holds
    have asksB : asked b := (List.mem_filter.mp highestB.mem).2
    rw [← groupB] at foundB
    obtain ⟨key', isLastB⟩ := (agree l (.refl l) b).mp (mem_firstOfEach.mpr foundB)
    by_cases same' : group b = key'
    · rw [← same', groupB, isLast] at isLastB
      rw [Option.some_inj.mp isLastB, groupB]
    · rw [← groupB] at isLast ⊢
      exact shared b key' asksB (holds_of_lastWith isLastB) same' last asks (holds_of_lastWith isLast)
  · have above : AboveAll rank (fun a => group a = group last) (l.filter asked) last := by
      refine aboveAll_of_perm highest fun l' perm b foundB => ?_
      obtain ⟨whole, permWhole, filtered⟩ := exists_perm_filter perm
      have inside := mem_firstOfEach.mp ((agree whole permWhole last).mpr ⟨key, isLast⟩)
      rw [filtered, foundB] at inside
      exact Option.some_inj.mp inside
    intro b inside meets
    obtain ⟨asksB, same⟩ : asked b = true ∧ group b = group last := by simpa using meets
    exact above b (List.mem_filter.mpr ⟨inside, asksB⟩) (decide_eq_true same)

/-- If the last one under each key is the highest of its group, both ways agree. -/
theorem agree_of_lastOfEachIsHighest
    (own : ∀ a, asked a → written (group a) a)
    (inOrder : ∀ key last, lastWith (written key) l = some last →
      LastOfEachIsHighest rank group asked l key last)
    {l' : List α} (perm : l'.Perm l) (a : α) :
    a ∈ firstOfEach group (descending rank (l'.filter asked)) ↔ ∃ key, lastWith (written key) l = some a := by
  have only : ∀ {key last}, lastWith (written key) l = some last → ∀ b,
      IsHighest rank (fun b => group b = group last) (l'.filter asked) b → b = last := by
    intro key last isLast b highest
    have last_inOrder := inOrder key last isLast
    obtain ⟨inside, asksB⟩ := List.mem_filter.mp highest.mem
    have same : group b = group last := by simpa using highest.holds
    have member : last ∈ l'.filter asked :=
      List.mem_filter.mpr ⟨perm.symm.subset (mem_of_lastWith isLast), last_inOrder.asks⟩
    refine (last_inOrder.above b (perm.subset inside) (by simp [asksB, same])).resolve_right ?_
    exact not_lt_of_ge (highest.highest last member (by simp))
  constructor
  · intro first
    have highest := isHighest_of_find? (mem_firstOfEach.mp first)
    obtain ⟨inside, asksA⟩ := List.mem_filter.mp highest.mem
    have member := perm.subset inside
    obtain ⟨last, isLast⟩ := lastWith_of_mem member (own a asksA)
    have same := (inOrder _ _ isLast).own a member asksA rfl
    refine ⟨group a, ?_⟩
    rw [isLast, only isLast a (same ▸ highest)]
  · rintro ⟨key, isLast⟩
    have member : a ∈ l'.filter asked :=
      List.mem_filter.mpr ⟨perm.symm.subset (mem_of_lastWith isLast), (inOrder key a isLast).asks⟩
    obtain ⟨b, found, highest⟩ := find?_descending_of_mem rank (fun b => group b = group a) member (by simp)
    rw [only isLast b highest] at found
    exact mem_firstOfEach.mpr found

end

end

end FaasNet.Lib
