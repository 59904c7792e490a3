import Hfior.Library.Slice

/-!
# A bounded FIFO queue, and its circular slots

`BoundedQueue` is a list of at most `capacity` entries.  A push that finds
the queue full is refused, and a pop takes as many entries as it asks for
and as there are.

`InSlots n slots base q` says that the entries of `q` are kept in `n`
circular slots, entry `i` in the slot of position `base + i`.  Unlike
`Stores` it does not need the entries that are gone, so the positions may
start anywhere.
-/

/-- A queue of at most `capacity` entries. -/
structure BoundedQueue (α : Type*) where
  capacity : Nat
  /-- The oldest entry first. -/
  entries : List α
  length_le : entries.length ≤ capacity

namespace BoundedQueue

variable {α : Type*}

def empty (capacity : Nat) : BoundedQueue α := ⟨capacity, [], Nat.zero_le _⟩

/-- Append the entry, unless the queue is full. -/
def push (q : BoundedQueue α) (x : α) : Bool × BoundedQueue α :=
  if h : q.entries.length < q.capacity then
    (true, ⟨q.capacity, q.entries ++ [x], by
      rw [List.length_append, List.length_singleton]
      exact h⟩)
  else (false, q)

/-- Take the first `n` entries, or all of them. -/
def pop (q : BoundedQueue α) (n : Nat) : List α × BoundedQueue α :=
  (q.entries.take n, ⟨q.capacity, q.entries.drop n, by
    rw [List.length_drop]
    exact (Nat.sub_le _ _).trans q.length_le⟩)

theorem push_accepted {q : BoundedQueue α} {x : α} :
    (q.push x).1 = true ↔ q.entries.length < q.capacity := by
  unfold push
  split <;> simp_all

end BoundedQueue

/-! ## Circular slots -/

variable {α : Type*} {n base base' k : Nat} {slots : Nat → α} {q : List α} {x : α}

/-- Entry `i` of the queue is in the slot of position `base + i`. -/
def InSlots (n : Nat) (slots : Nat → α) (base : Nat) (q : List α) : Prop :=
  ∀ i (h : i < q.length), slots ((base + i) % n) = q[i]

theorem InSlots.nil : InSlots n slots base [] :=
  fun i h => absurd h (Nat.not_lt_zero i)

/-- Positions that are equal modulo `n` have the same slots. -/
theorem InSlots.congr (h : InSlots n slots base q) (hbase : base' % n = base % n) :
    InSlots n slots base' q := by
  intro i hi
  rw [← h i hi, Nat.add_mod base', hbase, ← Nat.add_mod]

/-- The next entry goes to the slot behind the last one, which is free while
the queue is shorter than `n`. -/
theorem InSlots.push (h : InSlots n slots base q) (hroom : q.length < n) :
    InSlots n (Function.update slots ((base + q.length) % n) x) base (q ++ [x]) := by
  intro i hi
  rw [List.length_append, List.length_singleton] at hi
  rcases Nat.lt_succ_iff_lt_or_eq.1 hi with hlt | rfl
  · have hne : (base + i) % n ≠ (base + q.length) % n := mod_ne_mod_of_lt (by omega) (by omega)
    rw [Function.update_of_ne hne, List.getElem_append_left hlt]
    exact h i hlt
  · rw [Function.update_self, List.getElem_append_right (Nat.le_refl _)]
    simp

/-- Entries that are taken move the base. -/
theorem InSlots.drop (h : InSlots n slots base q) : InSlots n slots (base + k) (q.drop k) := by
  intro i hi
  rw [List.length_drop] at hi
  rw [List.getElem_drop, ← h (k + i) (by omega), Nat.add_assoc]

/-- Reading the slots from the base gives the first entries. -/
theorem InSlots.read (h : InSlots n slots base q) (hk : k ≤ q.length) :
    (List.range k).map (fun i => slots ((base + i) % n)) = q.take k := by
  apply List.ext_getElem
  · simp [hk]
  · intro i hi _
    simp only [List.getElem_map, List.getElem_range, List.getElem_take]
    simp only [List.length_map, List.length_range] at hi
    exact h i (by omega)
