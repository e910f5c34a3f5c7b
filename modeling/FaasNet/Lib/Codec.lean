import Mathlib.Algebra.BigOperators.Group.List.Basic
import Mathlib.Algebra.GroupWithZero.Nat
import Mathlib.Data.List.Basic

/-!
# Readers of a buffer

A reader takes a value off the front of a buffer, or fails. `Reads` is one half of a round trip: the
reader gives back what was written and leaves what follows it. `Yields` says what a reader can give at
all, and `Pays` bounds what it can make of a buffer, by a cost each value has to cover with the items
taken for it. They come with the rules
for sequencing and for counted loops, so that a codec is treated field by field. Nothing here depends
on what the items of a buffer are.
-/

namespace FaasNet.Lib

/-- Takes a value off the front of a buffer; `none` when it fails. -/
abbrev Reader (β α : Type) := StateT (List β) Option α

namespace Reader

section
variable {β α γ : Type}

/-- The next item. -/
def item : Reader β β
  | [] => none
  | b :: rest => some (b, rest)

/-- The values of `n` readings in turn. -/
def times : Nat → Reader β α → Reader β (List α)
  | 0, _ => pure []
  | n + 1, r => do
    let a ← r
    let as ← times n r
    pure (a :: as)

/-- The value of a computation that may fail and does not look at the buffer. -/
def require (value : Option α) : Reader β α := fun buffer => value.map fun a => (a, buffer)

/-- Two readers in a row read one after the other. -/
theorem bind_eq_some {r : Reader β α} {f : α → Reader β γ} {buffer rest : List β} {c : γ} :
    (r >>= f) buffer = some (c, rest) ↔ ∃ a between, r buffer = some (a, between) ∧ f a between = some (c, rest) := by
  change ((r buffer).bind fun p => f p.1 p.2) = some (c, rest) ↔ _
  simp [Option.bind_eq_some_iff, Prod.exists]

theorem bind_pure_apply {r : Reader β α} {f : α → γ} (buffer : List β) :
    (r >>= fun a => pure (f a)) buffer = (r buffer).map fun read => (f read.1, read.2) := by
  change ((r buffer).bind fun p => some (f p.1, p.2)) = _
  cases r buffer <;> rfl

theorem pure_eq_some {a c : α} {buffer rest : List β} :
    (pure a : Reader β α) buffer = some (c, rest) ↔ a = c ∧ buffer = rest := by
  change some (a, buffer) = some (c, rest) ↔ _
  simp

theorem require_eq_some {value : Option α} {c : α} {buffer rest : List β} :
    (require value : Reader β α) buffer = some (c, rest) ↔ value = some c ∧ buffer = rest := by
  simp [require, and_comm]

theorem item_eq_some {buffer rest : List β} {b : β} : item buffer = some (b, rest) ↔ buffer = b :: rest := by
  cases buffer with
  | nil => simp [item]
  | cons c buffer => simp [item]

/-- Readings of an item give the front of the buffer. -/
theorem times_item_eq_some {n : Nat} {buffer rest items : List β} :
    times n item buffer = some (items, rest) ↔ buffer = items ++ rest ∧ items.length = n := by
  induction n generalizing buffer items with
  | zero =>
    rw [times, pure_eq_some, List.length_eq_zero_iff]
    constructor
    · rintro ⟨rfl, rfl⟩
      exact ⟨rfl, rfl⟩
    · rintro ⟨rfl, rfl⟩
      exact ⟨rfl, rfl⟩
  | succ n ih =>
    rw [times, bind_eq_some]
    constructor
    · rintro ⟨b, between, first, tail⟩
      obtain ⟨bs, end_, others, made⟩ := bind_eq_some.mp tail
      obtain ⟨rfl, rfl⟩ := pure_eq_some.mp made
      obtain ⟨rfl, length⟩ := ih.mp others
      exact ⟨item_eq_some.mp first, by rw [List.length_cons, length]⟩
    · rintro ⟨rfl, length⟩
      obtain ⟨b, bs, rfl⟩ := List.exists_cons_of_length_eq_add_one length
      refine ⟨b, bs ++ rest, rfl, bind_eq_some.mpr ⟨bs, rest, ih.mpr ⟨rfl, ?_⟩, rfl⟩⟩
      simpa using length

/-- As many values are read as there should be. -/
theorem length_of_times {r : Reader β α} {n : Nat} {buffer rest : List β} {as : List α}
    (read : times n r buffer = some (as, rest)) : as.length = n := by
  induction n generalizing buffer as with
  | zero =>
    obtain ⟨rfl, -⟩ := pure_eq_some.mp read
    rfl
  | succ n ih =>
    obtain ⟨a, between, -, tail⟩ := bind_eq_some.mp read
    obtain ⟨bs, _, others, made⟩ := bind_eq_some.mp tail
    obtain ⟨rfl, rfl⟩ := pure_eq_some.mp made
    rw [List.length_cons, ih others]

end

end Reader

/-! ## Reading back what was written -/

/-- `r` reads `a` off every buffer that starts with `items`, and leaves what follows them. -/
def Reads {β α : Type} (r : Reader β α) (items : List β) (a : α) : Prop :=
  ∀ rest, r (items ++ rest) = some (a, rest)

namespace Reads

section
variable {β α γ : Type} {r : Reader β α} {items more : List β} {a : α}

theorem eq_some (reads : Reads r items a) : r items = some (a, []) := by
  simpa using reads []

theorem pure (a : α) : Reads (Pure.pure a : Reader β α) [] a := fun _ => rfl

theorem item (b : β) : Reads Reader.item [b] b := fun _ => rfl

/-- What was read is gone from the buffer of the next reader. -/
theorem bind_apply (reads : Reads r items a) (f : α → Reader β γ) (rest : List β) :
    (r >>= f) (items ++ rest) = f a rest := by
  change ((r (items ++ rest)).bind fun p => f p.1 p.2) = f a rest
  rw [reads rest]
  rfl

theorem bind {f : α → Reader β γ} {c : γ} (first : Reads r items a) (second : Reads (f a) more c) :
    Reads (r >>= f) (items ++ more) c := by
  intro rest
  rw [List.append_assoc, first.bind_apply]
  exact second rest

/-- The last reading of a sequence, whose value is wrapped. -/
theorem map {f : α → γ} (reads : Reads r items a) : Reads (do let x ← r; Pure.pure (f x)) items (f a) := by
  have done : Reads (do let x ← r; Pure.pure (f x)) (items ++ []) (f a) := reads.bind (pure (f a))
  rwa [List.append_nil] at done

/-- A value that is looked up after it was read. -/
theorem lookup {f : α → Option γ} {c : γ} (reads : Reads r items a) (found : f a = some c) :
    Reads (do let x ← r; Reader.require (f x)) items c := by
  have value : Reads (Reader.require (f a) : Reader β γ) [] c := by
    intro rest
    simp [Reader.require, found]
  have done : Reads (do let x ← r; Reader.require (f x)) (items ++ []) c := reads.bind value
  rwa [List.append_nil] at done

/-- A loop over what was written for each element of `ds`, which is read as `value` of it. -/
theorem times {δ : Type} {ds : List δ} {write : δ → List β} {value : δ → α}
    (each : ∀ d ∈ ds, Reads r (write d) (value d)) :
    Reads (Reader.times ds.length r) (ds.flatMap write) (ds.map value) := by
  induction ds with
  | nil => exact pure []
  | cons d ds ih =>
    have tail := ih fun e member => each e (List.mem_cons_of_mem d member)
    exact (each d List.mem_cons_self).bind (tail.map (f := (value d :: ·)))

end

end Reads

/-! ## What a reader can give -/

/-- Whatever `r` reads meets the condition. -/
def Yields {β α : Type} (r : Reader β α) (p : α → Prop) : Prop :=
  ∀ (buffer rest : List β) (a : α), r buffer = some (a, rest) → p a

namespace Yields

section
variable {β α γ : Type} {p : γ → Prop}

theorem pure {c : γ} (holds : p c) : Yields (Pure.pure c : Reader β γ) p := by
  intro buffer rest a read
  obtain ⟨rfl, -⟩ := Reader.pure_eq_some.mp read
  exact holds

theorem bind {r : Reader β α} {f : α → Reader β γ} (each : ∀ a, Yields (f a) p) : Yields (r >>= f) p := by
  intro buffer rest c read
  obtain ⟨a, between, -, tail⟩ := Reader.bind_eq_some.mp read
  exact each a between rest c tail

end

end Yields

/-! ## Paying for what is read -/

/-- Whatever `r` reads, its cost is covered by the items taken off the buffer. -/
def Pays {β α : Type} (r : Reader β α) (cost : α → Nat) : Prop :=
  ∀ (buffer rest : List β) (a : α), r buffer = some (a, rest) → cost a + rest.length ≤ buffer.length

namespace Pays

section
variable {β α γ : Type} {r : Reader β α} {cost : α → Nat}

theorem pure {a : α} (free : cost a = 0) : Pays (Pure.pure a : Reader β α) cost := by
  intro buffer rest c read
  obtain ⟨rfl, rfl⟩ := Reader.pure_eq_some.mp read
  omega

theorem bind {f : α → Reader β γ} {total : γ → Nat} (first : Pays r cost)
    (second : ∀ a, Pays (f a) fun c => total c - cost a) : Pays (r >>= f) total := by
  intro buffer rest c read
  obtain ⟨a, between, head, tail⟩ := Reader.bind_eq_some.mp read
  have headPaid := first buffer between a head
  have tailPaid : total c - cost a + rest.length ≤ between.length := second a between rest c tail
  omega

/-- What costs less is paid for. -/
theorem mono {less : α → Nat} (paid : Pays r cost) (below : ∀ a, less a ≤ cost a) : Pays r less := by
  intro buffer rest a read
  have := paid buffer rest a read
  have := below a
  omega

theorem require {value : Option α} (free : ∀ a, value = some a → cost a = 0) :
    Pays (Reader.require value : Reader β α) cost := by
  intro buffer rest a read
  obtain ⟨found, rfl⟩ := Reader.require_eq_some.mp read
  rw [free a found]
  omega

theorem item : Pays (Reader.item : Reader β β) fun _ => 1 := by
  intro buffer rest b read
  rw [Reader.item_eq_some.mp read, List.length_cons]
  exact Nat.le_of_eq (Nat.add_comm 1 rest.length)

/-- Values in a row are paid for one by one. -/
theorem times (paid : Pays r cost) (n : Nat) : Pays (Reader.times n r) fun as => (as.map cost).sum := by
  induction n with
  | zero => exact pure rfl
  | succ n ih =>
    refine bind paid fun a => bind ih fun as => pure ?_
    simp only [List.map_cons, List.sum_cons]
    omega

end

end Pays

end FaasNet.Lib
