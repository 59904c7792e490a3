import Hfior.Library.Machine
import Hfior.Library.Slice

/-!
# A log with a bounded window

This is the meaning of a drop-newest ring, with the array, the mask and the
machine words taken away.  A log grows at the head and never changes below
it.  A reader releases positions at the tail, and the head is never more
than `capacity` positions above the tail.

`tail_le_head` and `head_le` are fields, so a log that has lost an entry
of its window cannot be built.  The order `b ≤ b'` says that `b'` is a
later state of the same log, and `machine_mono` says that every operation
moves up in it.
-/

/-- A growing log whose window above `tail` is at most `capacity`. -/
structure BoundedLog (α : Type*) where
  capacity : Nat
  /-- Every entry that was ever appended, entry `p` at position `p`. -/
  log : List α
  /-- The first position that is not released. -/
  tail : Nat
  tail_le_head : tail ≤ log.length
  head_le : log.length ≤ tail + capacity

namespace BoundedLog

variable {α : Type*} {b b' : BoundedLog α} {x : α} {n : Nat}

/-- The next position to be written. -/
def head (b : BoundedLog α) : Nat := b.log.length

/-- Fewer than `capacity` positions are in the window. -/
def HasRoom (b : BoundedLog α) : Prop := b.log.length < b.tail + b.capacity

instance : Decidable b.HasRoom := Nat.decLt _ _

/-- Append one entry at the head. -/
def append (b : BoundedLog α) (x : α) (h : b.HasRoom) : BoundedLog α where
  capacity := b.capacity
  log := b.log ++ [x]
  tail := b.tail
  tail_le_head := by
    rw [List.length_append]
    exact b.tail_le_head.trans (Nat.le_add_right _ _)
  head_le := by
    rw [List.length_append]
    exact h

/-- Release every position below `n`. -/
def release (b : BoundedLog α) (n : Nat) (hlo : b.tail ≤ n)
    (hhi : n ≤ b.head) : BoundedLog α where
  capacity := b.capacity
  log := b.log
  tail := n
  tail_le_head := hhi
  head_le := b.head_le.trans (Nat.add_le_add_right hlo _)

/-- The two operations of the log. -/
inductive Op (α : Type*) where
  | append (x : α)
  | release (n : Nat)

/-- The log as a machine.  An operation outside its bounds is not enabled. -/
def machine : Machine (BoundedLog α) (Op α) where
  step b
    | .append x => if h : b.HasRoom then some (b.append x h) else none
    | .release n =>
      if h : b.tail ≤ n ∧ n ≤ b.head then some (b.release n h.1 h.2) else none

/-! ## Later states of one log -/

instance : Preorder (BoundedLog α) where
  le b b' := b.capacity = b'.capacity ∧ b.log <+: b'.log ∧ b.tail ≤ b'.tail
  le_refl b := ⟨rfl, List.prefix_refl _, le_rfl⟩
  le_trans _ _ _ h h' :=
    ⟨h.1.trans h'.1, h.2.1.trans h'.2.1, h.2.2.trans h'.2.2⟩

theorem le_append (h : b.HasRoom) : b ≤ b.append x h :=
  ⟨rfl, List.prefix_append _ _, le_rfl⟩

theorem le_release (hlo : b.tail ≤ n) (hhi : n ≤ b.head) :
    b ≤ b.release n hlo hhi :=
  ⟨rfl, List.prefix_refl _, hlo⟩

/-- Every run of operations leads to a later state of the same log. -/
theorem machine_mono {ops : List (Op α)} (h : machine.run b ops = some b') :
    b ≤ b' := by
  have hmono : ∀ (c : BoundedLog α) op c', machine.step c op = some c' → c ≤ c' := by
    intro c op c' hstep
    cases op with
    | append x =>
      simp only [machine] at hstep
      split at hstep
      · cases hstep
        exact le_append _
      · cases hstep
    | release n =>
      simp only [machine] at hstep
      split at hstep
      · cases hstep
        exact le_release _ _
      · cases hstep
  exact Machine.run_mono hmono h

theorem head_le_of_le (h : b ≤ b') : b.head ≤ b'.head := h.2.1.length_le

theorem tail_le_of_le (h : b ≤ b') : b.tail ≤ b'.tail := h.2.2

end BoundedLog
