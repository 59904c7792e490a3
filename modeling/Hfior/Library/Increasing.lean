import Mathlib.Data.List.Basic

/-!
# Counting in a strictly increasing list

In a list that is strictly increasing under `f`, the entries that are at
most the entry at position `p` are the first `p + 1` ones.  With
`countP_or_of_disjoint` this turns a count between two entries into a
difference of positions.
-/

variable {α : Type*} {l : List α} {f : α → Nat} {p : Nat}

/-- The rank of an entry is its position. -/
theorem countP_le_of_increasing (h : l.Pairwise fun x y => f x < f y)
    (hp : p < l.length) : l.countP (fun x => decide (f x ≤ f l[p])) = p + 1 := by
  rw [List.pairwise_iff_getElem] at h
  have hlow : ∀ x ∈ l.take (p + 1), decide (f x ≤ f l[p]) = true := by
    intro x hx
    obtain ⟨i, hi, rfl⟩ := List.mem_iff_getElem.1 hx
    rw [List.length_take] at hi
    rw [List.getElem_take, decide_eq_true_eq]
    rcases Nat.lt_or_ge i p with hlt | hge
    · exact Nat.le_of_lt (h i p (by omega) hp hlt)
    · obtain rfl : i = p := by omega
      exact Nat.le_refl _
  have hhigh : ∀ x ∈ l.drop (p + 1), ¬ decide (f x ≤ f l[p]) = true := by
    intro x hx
    obtain ⟨i, hi, rfl⟩ := List.mem_iff_getElem.1 hx
    rw [List.length_drop] at hi
    rw [List.getElem_drop, decide_eq_true_eq, Nat.not_le]
    exact h p (p + 1 + i) hp (by omega) (by omega)
  have hsplit : (l.take (p + 1) ++ l.drop (p + 1)).countP
      (fun x => decide (f x ≤ f l[p])) = _ := List.countP_append
  rw [List.take_append_drop, List.countP_eq_length.2 hlow,
    List.countP_eq_zero.2 hhigh, List.length_take] at hsplit
  omega

/-- A count splits over two disjoint conditions. -/
theorem countP_or_of_disjoint {q r s : α → Bool}
    (hor : ∀ x ∈ l, q x = (r x || s x)) (hand : ∀ x ∈ l, (r x && s x) = false) :
    l.countP q = l.countP r + l.countP s := by
  induction l with
  | nil => rfl
  | cons x xs ih =>
    have ih' := ih (fun y hy => hor y (List.mem_cons_of_mem x hy))
      (fun y hy => hand y (List.mem_cons_of_mem x hy))
    have hx := hor x List.mem_cons_self
    have hx' := hand x List.mem_cons_self
    rw [List.countP_cons, List.countP_cons, List.countP_cons, ih', hx]
    cases hr : r x <;> cases hs : s x <;> simp_all <;> omega
