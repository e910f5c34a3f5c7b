import Mathlib.Data.List.Sort

/-!
# Bags that are sorted by a key

A bag yields its items in any order. They are read by a stable sort with a key, after which those that are looked for are
taken. Items with one key come as the bag yields them, so that a reading is any arrangement that is sorted by the key.
Nothing here depends on what the items are.
-/

namespace FaasNet.Lib

section
variable {α κ β : Type*} [LinearOrder κ] (key : α → κ) (p : α → Bool)

/-- The items that are looked for, sorted by the key. -/
def sortedBy (bag : List α) : List α := (bag.insertionSort fun a b => key a ≤ key b).filter p

/-- Sorted by the key. -/
def ByKey (l : List α) : Prop := l.Pairwise fun a b => key a ≤ key b

variable {key p} {l bag arranged : List α} {n skipped : Nat} {f : α → β}

theorem sortedBy_perm (bag : List α) : (sortedBy key p bag).Perm (bag.filter p) :=
  (List.perm_insertionSort _ bag).filter p

theorem byKey_sortedBy (bag : List α) : ByKey key (sortedBy key p bag) := by
  have : Std.Total fun a b => key a ≤ key b := ⟨fun a b => le_total (key a) (key b)⟩
  have : IsTrans α fun a b => key a ≤ key b := ⟨fun a b c => le_trans⟩
  exact (List.pairwise_insertionSort _ bag).filter p

/-- What is arranged by the key is the reading of some bag. -/
theorem exists_sortedBy (perm : arranged.Perm (l.filter p)) (sorted : ByKey key arranged) :
    ∃ bag, bag.Perm l ∧ sortedBy key p bag = arranged := by
  have wanted : ∀ a ∈ arranged, p a := fun a member => (List.mem_filter.mp (perm.mem_iff.mp member)).2
  refine ⟨arranged ++ l.filter (fun a => !p a), (perm.append_right _).trans (List.filter_append_perm p l), ?_⟩
  have inside := (List.sublist_insertionSort sorted (List.sublist_append_left arranged (l.filter fun a => !p a))).filter p
  rw [List.filter_eq_self.mpr wanted] at inside
  refine (inside.eq_of_length ?_).symm
  have others : (l.filter fun a => !p a).filter p = [] := List.filter_eq_nil_iff.mpr fun a member => by
    have not := (List.mem_filter.mp member).2
    simpa using not
  have same := (@sortedBy_perm _ _ _ key p (arranged ++ l.filter fun a => !p a)).length_eq
  rw [List.filter_append, others, List.append_nil, List.filter_eq_self.mpr wanted] at same
  exact same.symm

/-- Two arrangements of the same items have the same key everywhere. -/
theorem map_key_eq (perm : arranged.Perm l) (sorted : ByKey key arranged) (sorted' : ByKey key l) :
    arranged.map key = l.map key :=
  (perm.map key).eq_of_pairwise (fun _ _ _ _ => le_antisymm) (List.pairwise_map.mpr sorted) (List.pairwise_map.mpr sorted')

/-- The values after the first `n` are the same in all arrangements exactly if items with one key have one value. -/
theorem drop_arranged_iff (sorted : ByKey key l) :
    (∀ arranged : List α, arranged.Perm l → ByKey key arranged → (arranged.map f).drop n = (l.map f).drop n) ↔
      ∀ (i j : Nat) (a b : α), l[i]? = some a → l[j]? = some b → n ≤ j → key a = key b → f a = f b := by
  constructor
  · intro all i j a b first second after same
    obtain ⟨hi, rfl⟩ := List.getElem?_eq_some_iff.mp first
    obtain ⟨hj, rfl⟩ := List.getElem?_eq_some_iff.mp second
    have keys : ((l.set i l[j]).set j l[i]).map key = l.map key := by
      apply List.ext_getElem (by simp)
      intro k _ _
      simp only [List.getElem_map, List.getElem_set]
      split
      next here => subst here; exact same
      next =>
        split
        next here => subst here; exact same.symm
        next => rfl
    have swapped := all ((l.set i l[j]).set j l[i]) (List.set_set_perm hi hj)
      (List.pairwise_map.mp (keys ▸ List.pairwise_map.mpr sorted))
    have at_j := congrArg (·[j - n]?) swapped
    simpa [List.getElem?_drop, Nat.add_sub_cancel' after, hj] using at_j
  · intro pairs arranged perm sorted'
    have keys := map_key_eq perm sorted' sorted
    have long : arranged.length = l.length := perm.length_eq
    apply List.ext_getElem (by simp [long])
    intro k within within'
    simp only [List.length_drop, List.length_map] at within within'
    simp only [List.getElem_drop, List.getElem_map]
    have there : n + k < arranged.length := by omega
    have there' : n + k < l.length := by omega
    obtain ⟨i, hi, same⟩ := List.getElem_of_mem (perm.mem_iff.mp (List.getElem_mem there))
    have key_eq : key arranged[n + k] = key l[n + k] := by
      have here := congrArg (·[n + k]?) keys
      simpa [there, there'] using here
    rw [← same] at key_eq ⊢
    exact pairs i (n + k) _ _ (List.getElem?_eq_getElem hi) (List.getElem?_eq_getElem there') (by omega) key_eq

/-- Skipping some of what is read gives the values after the first `n`, whatever the bag yields, exactly if as many are skipped
as there are, and items with one key have one value. -/
theorem drop_sortedBy_iff (sorted : ByKey key l) (least : skipped ≤ n) :
    (∀ bag : List α, bag.Perm l → ((sortedBy key p bag).map f).drop skipped = ((l.filter p).map f).drop n) ↔
      (skipped = n ∨ (l.filter p).length ≤ skipped) ∧
        ∀ (i j : Nat) (a b : α), (l.filter p)[i]? = some a → (l.filter p)[j]? = some b → n ≤ j → key a = key b → f a = f b := by
  have sorted' : ByKey key (l.filter p) := List.Pairwise.filter p sorted
  rw [← drop_arranged_iff sorted']
  constructor
  · intro all
    have enough : skipped = n ∨ (l.filter p).length ≤ skipped := by
      have long := congrArg List.length (all l (.refl l))
      simp only [List.length_drop, List.length_map, (@sortedBy_perm _ _ _ key p l).length_eq] at long
      omega
    refine ⟨enough, fun arranged perm sorted => ?_⟩
    obtain ⟨bag, perm', read⟩ := exists_sortedBy perm sorted
    have here := all bag perm'
    rw [read] at here
    rcases enough with rfl | short
    · exact here
    · rw [List.drop_eq_nil_of_le (by simp [perm.length_eq]; omega), List.drop_eq_nil_of_le (by simp; omega)]
  · rintro ⟨enough, all⟩ bag perm
    have wanted : (sortedBy key p bag).Perm (l.filter p) := (sortedBy_perm bag).trans (perm.filter p)
    rcases enough with rfl | short
    · exact all _ wanted (byKey_sortedBy bag)
    · rw [List.drop_eq_nil_of_le (by simp [wanted.length_eq]; omega), List.drop_eq_nil_of_le (by simp; omega)]

end

end FaasNet.Lib
