import Mathlib.Data.List.Count
import Mathlib.Data.List.Forall2
import Mathlib.Data.Prod.Basic

/-!
# Lists that lose or replace an element

A step of a system takes one element out of a list, or replaces one. These are the facts about such
lists, and about the items counted in lists made from them.
-/

namespace FaasNet.Lib

/-! ## Taking an element out -/

section
variable {α : Type*}

theorem eraseIdx_split {l : List α} {k : Nat} {a : α} (found : l[k]? = some a) :
    l = l.take k ++ a :: l.drop (k + 1) ∧ l.eraseIdx k = l.take k ++ l.drop (k + 1) := by
  obtain ⟨inside, rfl⟩ := List.getElem?_eq_some_iff.1 found
  exact ⟨by simp, List.eraseIdx_eq_take_drop_succ l k⟩

theorem mem_of_mem_erased {before after : List α} {a b : α} (member : b ∈ before ++ after) :
    b ∈ before ++ a :: after := by
  rcases List.mem_append.mp member with left | right
  · exact List.mem_append_left _ left
  · exact List.mem_append_right _ (List.mem_cons_of_mem _ right)

end

/-! ## Places -/

section
variable {α : Type*} {l : List α} {j k : Nat} {a b : α}

/-- What is at a place after another element was put at one. -/
theorem set_cases (there : (l.set k a)[j]? = some b) : (j = k ∧ b = a) ∨ (j ≠ k ∧ l[j]? = some b) := by
  rw [List.getElem?_set] at there
  split_ifs at there with same inside
  · exact .inl ⟨same.symm, (Option.some.inj there).symm⟩
  · exact .inr ⟨Ne.symm same, there⟩

/-- What is at a place after an element was put at the end. -/
theorem concat_cases (there : (l ++ [a])[j]? = some b) : (j = l.length ∧ b = a) ∨ l[j]? = some b := by
  rcases Nat.lt_or_ge j l.length with inside | beyond
  · rw [List.getElem?_append_left inside] at there
    exact .inr there
  · rw [List.getElem?_append_right beyond, List.getElem?_singleton] at there
    split_ifs at there with last
    exact .inl ⟨by omega, (Option.some.inj there).symm⟩

end

/-! ## Counting items -/

section
variable {α β γ : Type*}

/-- Replacing the element at `k` trades what it contributes for what the new one does. -/
theorem count_flatMap_set [BEq β] (items : α → List β) {l : List α} {k : Nat} {old : α}
    (found : l[k]? = some old) (new : α) (b : β) :
    ((l.set k new).flatMap items).count b + (items old).count b = (l.flatMap items).count b + (items new).count b := by
  induction l generalizing k with
  | nil => simp at found
  | cons a l ih =>
    cases k with
    | zero =>
      obtain rfl : a = old := by simpa using found
      simp only [List.set_cons_zero, List.flatMap_cons, List.count_append]
      omega
    | succ k =>
      have rest := ih (k := k) (by simpa using found)
      simp only [List.set_cons_succ, List.flatMap_cons, List.count_append]
      omega

/-- Pairs with one first component are counted by their second. -/
theorem count_map_mk [DecidableEq α] [DecidableEq β] (a a' : α) (l : List β) (b : β) :
    (l.map (Prod.mk a)).count (a', b) = if a' = a then l.count b else 0 := by
  split
  next same =>
    subst same
    exact List.count_map_of_injective l _ (Prod.mk_right_injective a') b
  next other =>
    apply List.count_eq_zero.mpr
    intro member
    obtain ⟨_, _, same⟩ := List.mem_map.mp member
    exact other (Prod.mk.inj same).1.symm

/-- What is left out when a list is filtered contributes nothing. -/
theorem flatMap_filterMap (make : α → Option β) (items : β → List γ) (weights : α → List γ) {l : List α}
    (each : ∀ a ∈ l, (make a).elim [] items = weights a) : (l.filterMap make).flatMap items = l.flatMap weights := by
  induction l with
  | nil => rfl
  | cons a l ih =>
    have here := each a List.mem_cons_self
    have rest := ih fun b member => each b (List.mem_cons_of_mem a member)
    rw [List.flatMap_cons, ← here, ← rest, List.filterMap_cons]
    cases make a <;> simp

end

/-! ## Changing the first element that is looked for -/

section
variable {α κ : Type*} {p : α → Bool} {f : α → α}

theorem modifyFirst_cons (a : α) (l : List α) :
    (((a :: l).findIdx? p).elim (a :: l) fun k => (a :: l).modify k f) =
      if p a then f a :: l else a :: (l.findIdx? p).elim l fun k => l.modify k f := by
  rw [List.findIdx?_cons]
  split
  next => simp
  next => cases l.findIdx? p <;> simp

/-- What is in the list then was there, or is the changed element. -/
theorem mem_modifyFirst {l : List α} {b : α} (member : b ∈ (l.findIdx? p).elim l fun k => l.modify k f) :
    b ∈ l ∨ ∃ a, l.find? p = some a ∧ b = f a := by
  induction l with
  | nil => simp at member
  | cons a l ih =>
    rw [modifyFirst_cons] at member
    split at member
    next first =>
      rcases List.mem_cons.mp member with rfl | rest
      · exact .inr ⟨a, List.find?_cons_of_pos first, rfl⟩
      · exact .inl (List.mem_cons_of_mem _ rest)
    next later =>
      rcases List.mem_cons.mp member with rfl | rest
      · exact .inl List.mem_cons_self
      · rw [List.find?_cons_of_neg later]
        exact (ih rest).imp_left (List.mem_cons_of_mem _)

/-- The changed element is in the list. -/
theorem mem_modifyFirst_of_find? {l : List α} {a : α} (found : l.find? p = some a) :
    f a ∈ (l.findIdx? p).elim l fun k => l.modify k f := by
  induction l with
  | nil => simp at found
  | cons b l ih =>
    rw [modifyFirst_cons]
    split
    next first =>
      obtain rfl : b = a := by simpa [List.find?_cons_of_pos first] using found
      exact List.mem_cons_self
    next later =>
      rw [List.find?_cons_of_neg later] at found
      exact List.mem_cons_of_mem b (ih found)

/-- The changed element is at some place of the list. -/
theorem modifyFirst_eq_set {l : List α} {a : α} (found : l.find? p = some a) :
    ∃ k, l[k]? = some a ∧ ((l.findIdx? p).elim l fun k => l.modify k f) = l.set k (f a) := by
  induction l with
  | nil => simp at found
  | cons b l ih =>
    rw [modifyFirst_cons]
    split
    next first =>
      obtain rfl : b = a := by simpa [List.find?_cons_of_pos first] using found
      exact ⟨0, rfl, rfl⟩
    next later =>
      rw [List.find?_cons_of_neg later] at found
      obtain ⟨k, there, changed⟩ := ih found
      exact ⟨k + 1, there, by rw [changed, List.set_cons_succ]⟩

/-- What is done to the elements that are not looked for first does not matter. -/
theorem modifyFirst_congr {g : α → α} {l : List α} (same : ∀ a, l.find? p = some a → f a = g a) :
    ((l.findIdx? p).elim l fun k => l.modify k f) = (l.findIdx? p).elim l fun k => l.modify k g := by
  induction l with
  | nil => rfl
  | cons b l ih =>
    rw [modifyFirst_cons, modifyFirst_cons]
    split
    next first => rw [same b (List.find?_cons_of_pos first)]
    next later => rw [ih fun a found => same a (by rw [List.find?_cons_of_neg later, found])]

/-- In a list of images, where one of them is looked for. -/
theorem find?_map_of_only {β : Type*} {g : β → α} {l : List β} {b : β} (member : b ∈ l)
    (only : ∀ x ∈ l, p (g x) = true ↔ x = b) : (l.map g).find? p = some (g b) := by
  induction l with
  | nil => cases member
  | cons x l ih =>
    rw [List.map_cons]
    by_cases here : x = b
    · subst here
      exact List.find?_cons_of_pos ((only x List.mem_cons_self).mpr rfl)
    · have missed : ¬ p (g x) = true := fun asked => here ((only x List.mem_cons_self).mp asked)
      rw [List.find?_cons_of_neg missed]
      exact ih ((List.mem_cons.mp member).resolve_left (Ne.symm here)) fun y inside =>
        only y (List.mem_cons_of_mem x inside)

/-- The one of them that is looked for is changed. -/
theorem modifyFirst_map {β : Type*} [DecidableEq β] {g : β → α} {l : List β} {b : β} (member : b ∈ l)
    (only : ∀ x ∈ l, p (g x) = true ↔ x = b) (distinct : l.Nodup) :
    (((l.map g).findIdx? p).elim (l.map g) fun k => (l.map g).modify k f) =
      l.map fun x => if x = b then f (g x) else g x := by
  induction l with
  | nil => cases member
  | cons x l ih =>
    obtain ⟨new, distinct⟩ := List.nodup_cons.mp distinct
    rw [List.map_cons, modifyFirst_cons, List.map_cons]
    by_cases here : x = b
    · subst here
      have others : l.map (fun y => if y = x then f (g y) else g y) = l.map g :=
        List.map_congr_left fun y inside => if_neg (ne_of_mem_of_not_mem inside new)
      rw [if_pos ((only x List.mem_cons_self).mpr rfl), if_pos rfl, others]
    · have later : b ∈ l := (List.mem_cons.mp member).resolve_left (Ne.symm here)
      rw [if_neg (mt (only x List.mem_cons_self).mp here), if_neg here,
        ih later (fun y inside => only y (List.mem_cons_of_mem x inside)) distinct]

/-- What the elements give, when one of them is changed. -/
theorem flatMap_modifyFirst_perm {β : Type*} (g : α → List β) {l : List α} {a : α} (found : l.find? p = some a) :
    (((l.findIdx? p).elim l fun k => l.modify k f).flatMap g ++ g a).Perm (l.flatMap g ++ g (f a)) := by
  induction l with
  | nil => simp at found
  | cons b l ih =>
    rw [modifyFirst_cons]
    split
    next first =>
      obtain rfl : b = a := by simpa [List.find?_cons_of_pos first] using found
      rw [List.flatMap_cons, List.flatMap_cons]
      exact List.perm_append_comm.trans ((List.perm_append_comm.append_left _).trans (by simp))
    next later =>
      rw [List.find?_cons_of_neg later] at found
      rw [List.flatMap_cons, List.flatMap_cons, List.append_assoc, List.append_assoc]
      exact (ih found).append_left _

/-- If the change only takes away, so it does from the whole. -/
theorem flatMap_modifyFirst_sublist {β : Type*} {g : α → List β} (less : ∀ a, (g (f a)).Sublist (g a)) (l : List α) :
    (((l.findIdx? p).elim l fun k => l.modify k f).flatMap g).Sublist (l.flatMap g) := by
  induction l with
  | nil => exact .refl _
  | cons a l ih =>
    rw [modifyFirst_cons]
    split
    next => exact (less a).append (.refl _)
    next => exact List.Sublist.append (.refl _) ih

theorem map_modifyFirst {key : α → κ} (kept : ∀ a, key (f a) = key a) (l : List α) :
    ((l.findIdx? p).elim l fun k => l.modify k f).map key = l.map key := by
  induction l with
  | nil => rfl
  | cons a l ih =>
    rw [modifyFirst_cons]
    split
    next => simp [kept]
    next => simpa using ih

theorem modifyFirst_modifyFirst (kept : ∀ a, p (f a) = p a) (g : α → α) (l : List α) :
    ((((l.findIdx? p).elim l fun k => l.modify k f).findIdx? p).elim ((l.findIdx? p).elim l fun k => l.modify k f)
        fun k => ((l.findIdx? p).elim l fun k => l.modify k f).modify k g) =
      (l.findIdx? p).elim l fun k => l.modify k (g ∘ f) := by
  induction l with
  | nil => rfl
  | cons a l ih =>
    rw [modifyFirst_cons, modifyFirst_cons]
    split
    next first => rw [modifyFirst_cons, if_pos ((kept a).trans first), Function.comp]
    next later => rw [modifyFirst_cons, if_neg later, ih]

theorem find?_modifyFirst (kept : ∀ a, p (f a) = p a) (l : List α) :
    ((l.findIdx? p).elim l fun k => l.modify k f).find? p = (l.find? p).map f := by
  induction l with
  | nil => rfl
  | cons a l ih =>
    rw [modifyFirst_cons]
    split
    next first => simp [kept, first]
    next later => simpa [List.find?_cons_of_neg later] using ih

/-- Other elements are found as before. -/
theorem find?_modifyFirst_other {q : α → Bool} (kept : ∀ a, q (f a) = q a)
    (apart : ∀ a, p a → ¬ q a) (l : List α) :
    ((l.findIdx? p).elim l fun k => l.modify k f).find? q = l.find? q := by
  induction l with
  | nil => rfl
  | cons a l ih =>
    rw [modifyFirst_cons]
    split
    next first =>
      have misses := apart a first
      rw [List.find?_cons_of_neg misses, List.find?_cons_of_neg (by rwa [kept])]
    next later => rw [List.find?_cons, List.find?_cons, ih]

end

/-! ## What is done to the images -/

section
variable {α β : Type*} {f : α → β} {r : α → α} {k : α → Bool}

theorem map_map_eq_map_iff {l : List α} (each : ∀ a ∈ l, f (r a) = f a ↔ k a) : (l.map r).map f = l.map f ↔ l.all k := by
  rw [List.map_map, List.map_inj_left, List.all_eq_true]
  exact forall₂_congr each

theorem option_map_map_eq_map_iff {o : Option α} (each : ∀ a, o = some a → (f (r a) = f a ↔ k a)) :
    (o.map r).map f = o.map f ↔ o.all k := by
  cases o with
  | none => simp
  | some a => simpa using each a rfl

/-- Related elements stand at the same places, and so do their images. -/
theorem exists_of_forall₂ {γ : Type*} {R : α → β → Prop} {f : α → γ} {g : β → γ} {l : List α} {l' : List β}
    (all : List.Forall₂ R l l') (same : l'.map g = l.map f) : ∀ a ∈ l, ∃ b, R a b ∧ g b = f a := by
  induction all with
  | nil => exact fun _ member => nomatch member
  | cons here _ ih =>
    rw [List.map_cons, List.map_cons, List.cons.injEq] at same
    rintro a (_ | member)
    · exact ⟨_, here, same.1⟩
    · exact ih same.2 a ‹_›

end

/-! ## Gathering what each element gives -/

section

theorem exists_of_mem_mapM {α β : Type} {f : α → Option β} {l : List α} {items : List β} (all : l.mapM f = some items)
    {b : β} (member : b ∈ items) : ∃ a ∈ l, f a = some b := by
  induction l generalizing items with
  | nil =>
    obtain rfl : [] = items := Option.some.inj all
    cases member
  | cons a l ih =>
    rw [List.mapM_cons] at all
    obtain ⟨first, here, all⟩ := Option.bind_eq_some_iff.mp all
    obtain ⟨rest, later, same⟩ := Option.bind_eq_some_iff.mp all
    obtain rfl : first :: rest = items := Option.some.inj same
    rcases List.mem_cons.mp member with rfl | inside
    · exact ⟨a, List.mem_cons_self, here⟩
    · obtain ⟨c, inside, given⟩ := ih later inside
      exact ⟨c, List.mem_cons_of_mem a inside, given⟩

/-- Where each element gives something, all of it is given. -/
theorem mapM_of_forall {α β : Type} {f : α → Option β} {g : α → β} {l : List α} (each : ∀ a ∈ l, f a = some (g a)) :
    l.mapM f = some (l.map g) := by
  induction l with
  | nil => rfl
  | cons a l ih =>
    rw [List.mapM_cons, each a List.mem_cons_self, ih fun b member => each b (List.mem_cons_of_mem a member)]
    rfl

/-- An element that gives nothing stops the others. -/
theorem mapM_eq_none {α β : Type} {f : α → Option β} {l : List α} : l.mapM f = none ↔ ∃ a ∈ l, f a = none := by
  induction l with
  | nil => simp
  | cons a l ih =>
    rw [List.mapM_cons]
    cases given : f a with
    | none => simp [given]
    | some b => cases rest : l.mapM f <;> simp_all

/-- What all elements give is related to them if each gives something that is related to it. -/
theorem exists_forall₂_mapM_iff {α β : Type*} {f : α → Option β} {R : α → β → Prop} {l : List α} :
    (∃ l', l.mapM f = some l' ∧ List.Forall₂ R l l') ↔ ∀ a ∈ l, ∃ b, f a = some b ∧ R a b := by
  induction l with
  | nil => simp
  | cons a l ih =>
    rw [List.forall_mem_cons, ← ih]
    constructor
    · rintro ⟨_, all, related⟩
      rw [List.mapM_cons] at all
      obtain ⟨b, here, all⟩ := Option.bind_eq_some_iff.mp all
      obtain ⟨rest, later, same⟩ := Option.bind_eq_some_iff.mp all
      cases same
      obtain ⟨first, others⟩ := List.forall₂_cons.mp related
      exact ⟨⟨b, here, first⟩, rest, later, others⟩
    · rintro ⟨⟨b, here, first⟩, rest, later, others⟩
      refine ⟨b :: rest, ?_, .cons first others⟩
      rw [List.mapM_cons, here, later]
      rfl

theorem forall₂_of_mapM {α β : Type*} {f : α → Option β} {l : List α} {l' : List β} (all : l.mapM f = some l') :
    List.Forall₂ (fun a b => f a = some b) l l' := by
  induction l generalizing l' with
  | nil =>
    obtain rfl : [] = l' := Option.some.inj all
    exact .nil
  | cons a l ih =>
    rw [List.mapM_cons] at all
    obtain ⟨b, here, all⟩ := Option.bind_eq_some_iff.mp all
    obtain ⟨rest, later, same⟩ := Option.bind_eq_some_iff.mp all
    cases same
    exact .cons here (ih later)

/-- All elements give something, or the first that throws stops the others. -/
theorem mapM_eq_ok_iff {ε α β : Type} {f : α → Except ε β} {l : List α} {items : List β} :
    l.mapM f = .ok items ↔ List.Forall₂ (fun a b => f a = .ok b) l items := by
  induction l generalizing items with
  | nil => cases items <;> simp [pure, Except.pure]
  | cons a l ih =>
    rw [List.mapM_cons]
    cases given : f a with
    | error e => exact ⟨fun h => (by cases h), fun h => (by cases h; simp_all)⟩
    | ok b =>
      cases rest : l.mapM f with
      | error e =>
        refine ⟨fun h => (by cases h), fun h => ?_⟩
        obtain ⟨_, _, _, others, rfl⟩ := List.forall₂_cons_left_iff.1 h
        rw [ih.2 others] at rest
        cases rest
      | ok others =>
        constructor
        · intro h
          obtain rfl : b :: others = items := Except.ok.inj h
          exact .cons given (ih.1 rest)
        · intro h
          obtain ⟨c, rest', hc, others', rfl⟩ := List.forall₂_cons_left_iff.1 h
          rw [given] at hc
          rw [ih.2 others'] at rest
          cases hc
          cases rest
          rfl

/-- The results of a cast are what was put into the elements. -/
theorem mapM_eq_ok_iff_map {ε α β : Type} {f : α → Except ε β} {g : β → α} (each : ∀ a b, f a = .ok b ↔ a = g b)
    {l : List α} {items : List β} : l.mapM f = .ok items ↔ l = items.map g := by
  rw [mapM_eq_ok_iff, ← List.forall₂_eq_eq_eq, List.forall₂_map_right_iff]
  simp only [each]

theorem exists_of_mapM_eq_ok {ε α β : Type} {f : α → Except ε β} {l : List α} {items : List β}
    (all : l.mapM f = .ok items) {a : α} (member : a ∈ l) : ∃ b ∈ items, f a = .ok b := by
  have pairs := mapM_eq_ok_iff.1 all
  clear all
  induction pairs with
  | nil => cases member
  | cons here _ ih =>
    rcases List.mem_cons.1 member with rfl | inside
    · exact ⟨_, List.mem_cons_self, here⟩
    · obtain ⟨b, inside, given⟩ := ih inside
      exact ⟨b, List.mem_cons_of_mem _ inside, given⟩

/-- It fails exactly if it fails for one of the elements. -/
theorem mapM_eq_error_iff {ε α β : Type} {f : α → Except ε β} {l : List α} :
    (∃ e, l.mapM f = .error e) ↔ ∃ a ∈ l, ∃ e, f a = .error e := by
  induction l with
  | nil => simp [pure, Except.pure]
  | cons a l ih =>
    rw [List.mapM_cons, List.exists_mem_cons_iff, ← ih]
    cases given : f a with
    | error e => exact iff_of_true ⟨e, rfl⟩ (.inl ⟨e, rfl⟩)
    | ok b =>
      cases rest : l.mapM f with
      | error e => exact iff_of_true ⟨e, rfl⟩ (.inr ⟨e, rfl⟩)
      | ok items => simp [bind, Except.bind, pure, Except.pure]

/-- And each result is that of an element. -/
theorem exists_of_mem_mapM_eq_ok {ε α β : Type} {f : α → Except ε β} {l : List α} {items : List β}
    (all : l.mapM f = .ok items) {b : β} (member : b ∈ items) : ∃ a ∈ l, f a = .ok b := by
  have pairs := mapM_eq_ok_iff.1 all
  clear all
  induction pairs with
  | nil => cases member
  | cons here _ ih =>
    rcases List.mem_cons.1 member with rfl | inside
    · exact ⟨_, List.mem_cons_self, here⟩
    · obtain ⟨a, inside, given⟩ := ih inside
      exact ⟨a, List.mem_cons_of_mem _ inside, given⟩

/-- To gather in two rounds is to gather in one. -/
theorem mapM_bind_eq_ok_iff {ε α β γ : Type} {f : α → Except ε β} {g : β → Except ε γ} {l : List α}
    {items : List γ} :
    l.mapM (fun a => f a >>= g) = .ok items ↔ ∃ middle, l.mapM f = .ok middle ∧ middle.mapM g = .ok items := by
  simp only [mapM_eq_ok_iff]
  induction l generalizing items with
  | nil => simp
  | cons a l ih =>
    constructor
    · intro pairs
      obtain ⟨c, items, given, others, rfl⟩ := List.forall₂_cons_left_iff.1 pairs
      obtain ⟨middle, first, second⟩ := ih.1 others
      cases hf : f a with
      | error e =>
        rw [hf] at given
        cases given
      | ok b =>
        rw [hf] at given
        exact ⟨b :: middle, .cons hf first, .cons given second⟩
    · rintro ⟨_, first, second⟩
      obtain ⟨b, middle, here, firsts, rfl⟩ := List.forall₂_cons_left_iff.1 first
      obtain ⟨c, items, given, seconds, rfl⟩ := List.forall₂_cons_left_iff.1 second
      exact .cons (by rw [here]; exact given) (ih.2 ⟨middle, firsts, seconds⟩)

variable {α β : Type} {f : α → Option (List β)}

theorem mapM_flatten_cons (a : α) (l : List α) :
    ((a :: l).mapM f).map List.flatten =
      (f a).bind fun items => ((l.mapM f).map List.flatten).map (items ++ ·) := by
  rw [List.mapM_cons]
  cases f a with
  | none => rfl
  | some items => cases l.mapM f <;> rfl

/-- Elements that give nothing can be left out. -/
theorem mapM_flatten_filter {p : α → Bool} {l : List α} (nothing : ∀ a ∈ l, ¬ p a → f a = some []) :
    ((l.filter p).mapM f).map List.flatten = (l.mapM f).map List.flatten := by
  induction l with
  | nil => rfl
  | cons a l ih =>
    have rest := ih fun b member => nothing b (List.mem_cons_of_mem a member)
    by_cases asked : p a
    · rw [List.filter_cons, if_pos asked, mapM_flatten_cons, mapM_flatten_cons, rest]
    · rw [List.filter_cons, if_neg asked, rest, mapM_flatten_cons, nothing a List.mem_cons_self asked]
      exact (Option.map_id_apply).symm

end

/-! ## Elements with a property first -/

/-- The elements with a property come first exactly if none without comes before one with. -/
theorem filter_append_filter_iff {α : Type} (p : α → Bool) (l : List α) :
    l.filter p ++ l.filter (fun a => !p a) = l ↔ l.Pairwise fun a b => p b = true → p a = true := by
  constructor
  · intro first
    rw [← first, List.pairwise_append]
    refine ⟨List.pairwise_of_forall_mem_list fun a kept _ _ _ => List.of_mem_filter kept,
      List.pairwise_of_forall_mem_list fun _ _ b without has => ?_, fun a kept _ _ _ => List.of_mem_filter kept⟩
    simp [has] at without
  · intro sorted
    induction sorted with
    | nil => rfl
    | @cons a l behind _ ih =>
      cases has : p a with
      | true => rw [List.filter_cons_of_pos has, List.filter_cons_of_neg (by simp [has]), List.cons_append, ih]
      | false =>
        have none : ∀ b ∈ l, p b = false := fun b member => by
          by_contra other
          simp [behind b member (by simpa using other)] at has
        rw [List.filter_cons_of_neg (by simp [has]), List.filter_cons_of_pos (by simp [has]),
          List.filter_eq_nil_iff.mpr fun b member => by simp [none b member], List.nil_append,
          List.filter_eq_self.mpr fun b member => by simp [none b member]]

end FaasNet.Lib
