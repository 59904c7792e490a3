import Mathlib.Logic.Function.Basic
import Mathlib.Data.List.Basic

/-!
# Sets of keys as bit masks

`maskOf bit keys on` is the word with the bit of every key of the list that
is on.  Where the bits of the keys are disjoint (`Disjoint`), setting and
clearing one bit turns one key on and off, and the mask says which keys are
on.
-/

namespace BitMask

/-! ## Bits of a word -/

section
variable {a b c : UInt16}

theorem or_and : (a ||| b) &&& c = a &&& c ||| b &&& c := by
  apply UInt16.toBitVec_inj.1
  ext i
  simp [Bool.and_or_distrib_right]

theorem or_and_self : (a ||| b) &&& b = b := by
  apply UInt16.toBitVec_inj.1
  ext i hi
  simp only [UInt16.toBitVec_and, UInt16.toBitVec_or, BitVec.getElem_and,
    BitVec.getElem_or]
  cases a.toBitVec[i] <;> cases b.toBitVec[i] <;> rfl

/-- Bits that a word does not have can be cleared. -/
theorem and_not_eq_self (h : a &&& b = 0) : a &&& ~~~b = a := by
  have hbits := congrArg UInt16.toBitVec h
  apply UInt16.toBitVec_inj.1
  ext i hi
  have hbit := congrArg (fun x : BitVec 16 => x[i]) hbits
  simp only [UInt16.toBitVec_and, BitVec.getElem_and] at hbit
  simp only [UInt16.toBitVec_and, UInt16.toBitVec_not, BitVec.getElem_and,
    BitVec.getElem_not]
  revert hbit
  cases a.toBitVec[i] <;> cases b.toBitVec[i] <;> simp

end

/-! ## Masks -/

variable {κ : Type*}

/-- The bits of the keys that are on. -/
def maskOf (bit : κ → UInt16) (keys : List κ) (on : κ → Bool) : UInt16 :=
  keys.foldr (fun k m => (if on k then bit k else 0) ||| m) 0

/-- Every key has a bit, and no two keys share one. -/
structure Disjoint (bit : κ → UInt16) (keys : List κ) : Prop where
  ne_zero : ∀ k ∈ keys, bit k ≠ 0
  disjoint : keys.Pairwise fun k k' => bit k &&& bit k' = 0

section
variable {bit : κ → UInt16} {keys keys' : List κ} {on on' : κ → Bool} {k : κ} {b : UInt16}

@[simp] theorem maskOf_nil : maskOf bit [] on = 0 := rfl

@[simp] theorem maskOf_cons : maskOf bit (k :: keys) on =
    (if on k then bit k else 0) ||| maskOf bit keys on := rfl

theorem maskOf_append : maskOf bit (keys ++ keys') on =
    maskOf bit keys on ||| maskOf bit keys' on := by
  induction keys with
  | nil => simp
  | cons k keys ih => simp [ih, UInt16.or_assoc]

/-- Collecting the bits from the left gives the same mask. -/
theorem foldl_eq_maskOf (m : UInt16) :
    keys.foldl (fun m k => if on k then m ||| bit k else m) m = m ||| maskOf bit keys on := by
  induction keys generalizing m with
  | nil => simp
  | cons k keys ih =>
    rw [List.foldl_cons, ih, maskOf_cons, ← UInt16.or_assoc]
    split <;> simp

theorem maskOf_congr (h : ∀ k ∈ keys, on k = on' k) :
    maskOf bit keys on = maskOf bit keys on' := by
  induction keys with
  | nil => rfl
  | cons k keys ih =>
    rw [maskOf_cons, maskOf_cons, h k (by simp), ih fun x hx => h x (by simp [hx])]

/-- A word that shares no bit with the keys shares none with their mask. -/
theorem maskOf_and_eq_zero (h : ∀ k ∈ keys, bit k &&& b = 0) :
    maskOf bit keys on &&& b = 0 := by
  induction keys with
  | nil => simp
  | cons k keys ih =>
    rw [maskOf_cons, or_and, ih fun x hx => h x (by simp [hx])]
    split
    · simp [h k (by simp)]
    · simp

theorem Disjoint.tail (h : Disjoint bit (k :: keys)) : Disjoint bit keys :=
  ⟨fun x hx => h.ne_zero x (by simp [hx]), (List.pairwise_cons.1 h.disjoint).2⟩

/-- The first key shares no bit with the others. -/
theorem Disjoint.head (h : Disjoint bit (k :: keys)) : ∀ x ∈ keys, bit x &&& bit k = 0 := by
  intro x hx
  rw [UInt16.and_comm]
  exact (List.pairwise_cons.1 h.disjoint).1 x hx

/-- So the first key is not one of the others. -/
theorem Disjoint.ne_head (h : Disjoint bit (k :: keys)) : ∀ x ∈ keys, x ≠ k := by
  rintro x hx rfl
  have hzero := h.head x hx
  rw [UInt16.and_self] at hzero
  exact h.ne_zero x (by simp) hzero

/-- The mask says which keys are on. -/
theorem test_maskOf (h : Disjoint bit keys) (hk : k ∈ keys) :
    (maskOf bit keys on &&& bit k != 0) = on k := by
  induction keys with
  | nil => simp at hk
  | cons x keys ih =>
    rw [maskOf_cons, or_and]
    rcases List.mem_cons.1 hk with rfl | hmem
    · rw [maskOf_and_eq_zero h.head]
      have hne := h.ne_zero k (by simp)
      cases hon : on k <;> simp [hne]
    · have hzero : bit x &&& bit k = 0 := (List.pairwise_cons.1 h.disjoint).1 k hmem
      rw [← ih h.tail hmem]
      split <;> simp [hzero]

/-- Equal masks are equal on every key. -/
theorem maskOf_inj (h : Disjoint bit keys) :
    maskOf bit keys on = maskOf bit keys on' ↔ ∀ k ∈ keys, on k = on' k := by
  constructor
  · intro heq k hk
    have htest : (maskOf bit keys on &&& bit k != 0) = on k := test_maskOf h hk
    rw [heq, test_maskOf h hk] at htest
    exact htest.symm
  · exact maskOf_congr

section
variable [DecidableEq κ]

/-- A key that is not in the list does not matter. -/
theorem maskOf_update_of_notMem (hk : k ∉ keys) (v : Bool) :
    maskOf bit keys (Function.update on k v) = maskOf bit keys on := by
  apply maskOf_congr
  intro x hx
  have hne : x ≠ k := by
    rintro rfl
    exact hk hx
  exact Function.update_of_ne hne v on

/-- Setting the bit of a key turns the key on. -/
theorem maskOf_or (h : Disjoint bit keys) (hk : k ∈ keys) :
    maskOf bit keys on ||| bit k = maskOf bit keys (Function.update on k true) := by
  induction keys with
  | nil => simp at hk
  | cons x keys ih =>
    rw [maskOf_cons, maskOf_cons]
    rcases List.mem_cons.1 hk with rfl | hmem
    · have hnot : k ∉ keys := fun hmem => h.ne_head k hmem rfl
      rw [maskOf_update_of_notMem hnot, Function.update_self, if_pos rfl, UInt16.or_comm]
      cases on k
      · simp
      · rw [if_pos rfl, ← UInt16.or_assoc, UInt16.or_self]
    · rw [UInt16.or_assoc, ih h.tail hmem,
        Function.update_of_ne (h.ne_head k hmem).symm true on]

/-- Clearing the bit of a key turns the key off. -/
theorem maskOf_and_not (h : Disjoint bit keys) (hk : k ∈ keys) :
    maskOf bit keys on &&& ~~~bit k = maskOf bit keys (Function.update on k false) := by
  induction keys with
  | nil => simp at hk
  | cons x keys ih =>
    rw [maskOf_cons, maskOf_cons, or_and]
    rcases List.mem_cons.1 hk with rfl | hmem
    · have hnot : k ∉ keys := fun hmem => h.ne_head k hmem rfl
      rw [maskOf_update_of_notMem hnot, Function.update_self,
        and_not_eq_self (maskOf_and_eq_zero h.head)]
      cases on k <;> simp
    · have hzero : bit x &&& bit k = 0 := (List.pairwise_cons.1 h.disjoint).1 k hmem
      rw [ih h.tail hmem, Function.update_of_ne (h.ne_head k hmem).symm false on]
      split
      · rw [and_not_eq_self hzero]
      · simp

end

end

end BitMask
