import Mathlib.Data.List.Perm.Basic
import Mathlib.Order.Lattice

/-!
# Versions of keyed records

Records are kept in several versions, each with the key of its record and a number, and one version of
each record is marked as the current one. The facts here say when adding a record or a version keeps the
numbers apart and the mark on the highest one. The order of the versions does not matter.
-/

namespace FaasNet.Lib

/-- What is asked of one version. -/
structure Version (κ ν : Type*) where
  key : κ
  number : ν
  current : Bool
  deriving DecidableEq, Repr

section
variable {κ ν : Type*} [DecidableEq κ] [LinearOrder ν]

/-- The versions of a record that are marked as the current one. -/
def currentOf (key : κ) (versions : List (Version κ ν)) : List (Version κ ν) :=
  versions.filter fun w => w.key = key ∧ w.current

/-- The numbers of one record are different, one version of it is current, and no number is higher than its. -/
structure Versioned (versions : List (Version κ ν)) : Prop where
  distinct : (versions.map fun v => (v.key, v.number)).Nodup
  current : ∀ v ∈ versions, ∃ last, currentOf v.key versions = [last] ∧
    ∀ w ∈ versions, w.key = v.key → w.number ≤ last.number

variable {versions versions' : List (Version κ ν)} {v next : Version κ ν} {key : κ}

omit [LinearOrder ν] in
theorem currentOf_cons : currentOf key (v :: versions) =
    if v.key = key ∧ v.current then v :: currentOf key versions else currentOf key versions := by
  simp only [currentOf, List.filter_cons, decide_eq_true_eq]

omit [LinearOrder ν] in
theorem mem_currentOf : v ∈ currentOf key versions ↔ v ∈ versions ∧ v.key = key ∧ v.current := by
  simp only [currentOf, List.mem_filter, decide_eq_true_eq]

omit [LinearOrder ν] in
theorem currentOf_eq_nil (none : ∀ w ∈ versions, w.key = key → ¬ w.current) : currentOf key versions = [] :=
  List.filter_eq_nil_iff.mpr fun w member => by simpa using none w member

theorem Versioned.perm (versioned : Versioned versions) (perm : versions.Perm versions') : Versioned versions' where
  distinct := (perm.map _).nodup_iff.mp versioned.distinct
  current w member := by
    obtain ⟨last, only, highest⟩ := versioned.current w (perm.mem_iff.mpr member)
    refine ⟨last, ?_, fun o inside => highest o (perm.mem_iff.mpr inside)⟩
    have kept : (currentOf w.key versions').Perm [last] := only ▸ (perm.filter _).symm
    exact List.perm_singleton.mp kept

theorem versioned_perm_iff (perm : versions.Perm versions') : Versioned versions ↔ Versioned versions' :=
  ⟨fun versioned => versioned.perm perm, fun versioned => versioned.perm perm.symm⟩

/-- A version that is current is the highest of its record, and the only current one. -/
theorem Versioned.highest (versioned : Versioned versions) (member : v ∈ versions) (current : v.current) :
    currentOf v.key versions = [v] ∧ ∀ w ∈ versions, w.key = v.key → w.number ≤ v.number := by
  obtain ⟨last, only, highest⟩ := versioned.current v member
  have here : v ∈ currentOf v.key versions := mem_currentOf.mpr ⟨member, rfl, current⟩
  obtain rfl : v = last := by simpa [only] using here
  exact ⟨only, highest⟩

/-- Adding a version that is higher than all others of its record, of which none is current. -/
theorem Versioned.cons_highest (versioned : ∀ w ∈ versions, w.key ≠ v.key → ∃ last, currentOf w.key versions = [last] ∧
      ∀ o ∈ versions, o.key = w.key → o.number ≤ last.number)
    (distinct : (versions.map fun v => (v.key, v.number)).Nodup) (others : ∀ w ∈ versions, w.key = v.key → ¬ w.current)
    (above : ∀ w ∈ versions, w.key = v.key → w.number < v.number) (current : v.current) : Versioned (v :: versions) := by
  have only : currentOf v.key (v :: versions) = [v] := by
    rw [currentOf_cons, if_pos ⟨rfl, current⟩, currentOf_eq_nil others]
  have highest : ∀ o ∈ v :: versions, o.key = v.key → o.number ≤ v.number := by
    intro o inside same
    rcases List.mem_cons.mp inside with rfl | there
    · exact le_rfl
    · exact (above o there same).le
  refine ⟨?_, fun w member => ?_⟩
  · rw [List.map_cons, List.nodup_cons]
    refine ⟨fun inside => ?_, distinct⟩
    obtain ⟨w, member, same⟩ := List.mem_map.mp inside
    obtain ⟨key, number⟩ := Prod.mk.inj same
    exact (above w member key).ne number
  · by_cases same : w.key = v.key
    · exact ⟨v, by rw [same]; exact only, fun o inside here => highest o inside (here.trans same)⟩
    · have there : w ∈ versions := (List.mem_cons.mp member).resolve_left fun here => same (here ▸ rfl)
      obtain ⟨last, only, highest⟩ := versioned w there same
      refine ⟨last, by rw [currentOf_cons, if_neg fun mine => same mine.1.symm, only], fun o inside here => ?_⟩
      rcases List.mem_cons.mp inside with rfl | inside
      · exact absurd here.symm same
      · exact highest o inside here

/-- The first version of a new record keeps the versions in order exactly when it is the current one. -/
theorem versioned_cons_new_iff (versioned : Versioned versions) (new : ∀ w ∈ versions, w.key ≠ v.key) :
    Versioned (v :: versions) ↔ v.current := by
  have others : ∀ w ∈ versions, w.key = v.key → ¬ w.current := fun w member same => absurd same (new w member)
  constructor
  · intro after
    obtain ⟨last, only, -⟩ := after.current v List.mem_cons_self
    by_contra old
    rw [currentOf_cons, if_neg fun mine => old mine.2, currentOf_eq_nil others] at only
    cases only
  · exact .cons_highest (fun w member _ => versioned.current w member) versioned.distinct others
      fun w member same => absurd same (new w member)

/-- A version is followed by another: the versions stay in order exactly when it was the current one and the number
goes up. -/
theorem versioned_follow_iff (versioned : Versioned (v :: versions)) (same : next.key = v.key) (current : next.current) :
    Versioned (next :: { v with current := false } :: versions) ↔ v.current ∧ v.number < next.number := by
  constructor
  · intro after
    obtain ⟨only, highest⟩ := after.highest List.mem_cons_self current
    have below := highest { v with current := false } (by simp) same.symm
    have apart : v.number ≠ next.number := by
      intro equal
      have distinct := after.distinct
      simp [same, equal] at distinct
    refine ⟨?_, lt_of_le_of_ne below apart⟩
    by_contra old
    -- then another version of the record is current still
    obtain ⟨last, before, -⟩ := versioned.current v List.mem_cons_self
    rw [currentOf_cons, if_neg fun mine => old mine.2] at before
    rw [currentOf_cons, if_pos ⟨rfl, current⟩, currentOf_cons, if_neg (by simp), same, before] at only
    simp at only
  · rintro ⟨was, up⟩
    obtain ⟨only, highest⟩ := versioned.highest List.mem_cons_self was
    rw [currentOf_cons, if_pos ⟨rfl, was⟩] at only
    have none : currentOf v.key versions = [] := (List.cons.inj only).2
    refine .cons_highest (fun w member other => ?_) ?_ (fun w member mine now => ?_) (fun w member mine => ?_) current
    · have other : w.key ≠ v.key := fun here => other (here.trans same.symm)
      have there : w ∈ versions := (List.mem_cons.mp member).resolve_left fun here => other (here ▸ rfl)
      obtain ⟨last, one, above⟩ := versioned.current w (List.mem_cons_of_mem v there)
      rw [currentOf_cons, if_neg fun mine => other mine.1.symm] at one
      refine ⟨last, by rw [currentOf_cons, if_neg (by simp), one], fun o inside here => ?_⟩
      rcases List.mem_cons.mp inside with rfl | inside
      · exact absurd here.symm other
      · exact above o (List.mem_cons_of_mem v inside) here
    · exact versioned.distinct
    · rcases List.mem_cons.mp member with rfl | there
      · simp at now
      · have here : w ∈ currentOf v.key versions := mem_currentOf.mpr ⟨there, mine.trans same, now⟩
        rw [none] at here
        cases here
    · rcases List.mem_cons.mp member with rfl | there
      · exact up
      · exact (highest w (List.mem_cons_of_mem v there) (mine.trans same)).trans_lt up

end

end FaasNet.Lib
