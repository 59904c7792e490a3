import Mathlib.Data.Int.ModEq
import Mathlib.Data.List.Infix
import Mathlib.Logic.Function.Basic

/-!
# Slices of a list, and lists kept in circular slots

`slice l i j` is the part of `l` at the positions `i ≤ p < j`.  `Stores n
slots l lo` says that the entries of `l` from position `lo` on are kept in
`n` circular slots, position `p` in slot `p % n`.

The two facts that a circular buffer needs are `Stores.write` (a write to
the slot of the next position spoils nothing that is less than `n` behind
it) and `Stores.read` (reading the slots of consecutive stored positions
gives the slice).
-/

variable {α : Type*} {l l' : List α} {i j k n lo p : Nat} {slots : Nat → α}
  {x : α}

/-! ## Slices -/

/-- The entries of `l` at the positions from `i` up to, and without, `j`. -/
def slice (l : List α) (i j : Nat) : List α := (l.take j).drop i

theorem slice_length (h : j ≤ l.length) : (slice l i j).length = j - i := by
  rw [slice, List.length_drop, List.length_take, Nat.min_eq_left h]

@[simp] theorem slice_self : slice l i i = [] := by
  rw [slice, List.drop_eq_nil_iff, List.length_take]
  omega

theorem slice_append_slice (hij : i ≤ j) (hjk : j ≤ k) :
    slice l i j ++ slice l j k = slice l i k := by
  have hj : l.take j = (l.take k).take j := by
    rw [List.take_take, Nat.min_eq_left hjk]
  rw [slice, slice, slice, hj, List.drop_take,
    show (l.take k).drop j = ((l.take k).drop i).drop (j - i) from by
      rw [List.drop_drop, Nat.add_sub_cancel' hij],
    List.take_append_drop]

theorem slice_eq_drop (h : l.length ≤ j) : slice l i j = l.drop i := by
  rw [slice, List.take_of_length_le h]

theorem slice_append_drop (hij : i ≤ j) :
    slice l i j ++ l.drop j = l.drop i := by
  rcases Nat.le_total j l.length with hj | hj
  · rw [← slice_eq_drop (i := j) (Nat.le_refl _), slice_append_slice hij hj,
      slice_eq_drop (Nat.le_refl _)]
  · rw [slice_eq_drop hj, List.drop_eq_nil_of_le hj, List.append_nil]

/-- What lies below the end of a list is the same in every extension. -/
theorem slice_append_left (h : j ≤ l.length) :
    slice (l ++ l') i j = slice l i j := by
  rw [slice, slice, List.take_append_of_le_length h]

theorem slice_of_prefix (h : l <+: l') (hj : j ≤ l.length) : slice l' i j = slice l i j := by
  obtain ⟨rest, rfl⟩ := h
  exact slice_append_left hj

theorem slice_one (h : i < l.length) : slice l i (i + 1) = [l[i]] := by
  rw [slice, List.drop_take, Nat.add_sub_cancel_left,
    List.take_one, List.head?_drop, List.getElem?_eq_getElem h]
  rfl

theorem slice_succ (hij : i ≤ j) (h : j < l.length) :
    slice l i (j + 1) = slice l i j ++ [l[j]] := by
  rw [← slice_append_slice hij (Nat.le_succ j), slice_one h]

/-- The first and the last entry of a slice that is not empty. -/
theorem slice_ends (hij : i < j)
    (hj : j ≤ l.length) :
    (slice l i j).head? = some l[i] ∧
      (slice l i j).getLast? = some l[j - 1] := by
  have hlength : (slice l i j).length = j - i := slice_length hj
  constructor
  · rw [List.head?_eq_getElem?, List.getElem?_eq_getElem (by omega)]
    simp [slice]
  · rw [List.getLast?_eq_getElem?, List.getElem?_eq_getElem (by omega)]
    have hindex : i + (min j l.length - i - 1) = j - 1 := by omega
    simp [slice, hindex]

/-- A list that begins another one goes on as that one does. -/
theorem prefix_snoc (h : l' <+: l) (hx : l[l'.length]? = some x) :
    l' ++ [x] <+: l := by
  obtain ⟨hlt, rfl⟩ := List.getElem?_eq_some_iff.1 hx
  exact List.concat_get_prefix h hlt

/-! ## Circular slots -/

/-- Positions that are less than `n` apart have different slots. -/
theorem mod_ne_mod_of_lt (hpk : p < k) (hkp : k < p + n) : p % n ≠ k % n := by
  intro h
  have hd : n ∣ k - p := (Nat.modEq_iff_dvd' hpk.le).1 h
  have : k - p = 0 := Nat.eq_zero_of_dvd_of_lt hd (by omega)
  omega

/-- The newest of the `k` positions that has the slot of `p`. -/
theorem exists_newest_position (hn : 0 < n) (hpk : p < k) :
    ∃ q, p ≤ q ∧ q < k ∧ k ≤ q + n ∧ q % n = p % n := by
  have hdiv := Nat.div_add_mod (k - 1 - p) n
  have hmod := Nat.mod_lt (k - 1 - p) hn
  refine ⟨p + n * ((k - 1 - p) / n), Nat.le_add_right _ _, ?_, ?_, ?_⟩
  · omega
  · omega
  · exact Nat.add_mul_mod_self_left _ _ _

/-- The `n` slots keep every entry of `l` from position `lo` on. -/
def Stores (n : Nat) (slots : Nat → α) (l : List α) (lo : Nat) : Prop :=
  ∀ p (h : p < l.length), lo ≤ p → slots (p % n) = l[p]

theorem Stores.mono (h : Stores n slots l lo) (hk : lo ≤ k) :
    Stores n slots l k :=
  fun p hp hkp => h p hp (hk.trans hkp)

/-- A write to the slot of the next position spoils no stored entry, as
long as fewer than `n` entries are stored. -/
theorem Stores.write (h : Stores n slots l lo) (hroom : l.length < lo + n) :
    Stores n (Function.update slots (l.length % n) x) l lo := by
  intro p hp hlo
  have hne : p % n ≠ l.length % n := mod_ne_mod_of_lt hp (by omega)
  rw [Function.update_of_ne hne]
  exact h p hp hlo

/-- Once the slot of the next position is written, the list may grow. -/
theorem Stores.commit (h : Stores n slots l lo)
    (hx : slots (l.length % n) = x) : Stores n slots (l ++ [x]) lo := by
  intro p hp hlo
  rw [List.length_append, List.length_singleton] at hp
  rcases Nat.lt_succ_iff_lt_or_eq.1 hp with hlt | rfl
  · rw [List.getElem_append_left hlt]
    exact h p hlt hlo
  · rw [hx, List.getElem_append_right le_rfl]
    simp

/-- Reading the slots of consecutive stored positions gives the slice. -/
theorem Stores.read (h : Stores n slots l lo) (hp : lo ≤ p) :
    ∀ k, p + k ≤ l.length →
      (List.range k).map (fun i => slots ((p + i) % n)) = slice l p (p + k)
  | 0, _ => by simp
  | k + 1, hk => by
    rw [List.range_succ, List.map_append, h.read hp k (by omega),
      ← Nat.add_assoc, slice_succ (by omega) (by omega)]
    simp [h (p + k) (by omega) (by omega)]
