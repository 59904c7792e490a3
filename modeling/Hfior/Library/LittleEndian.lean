import Mathlib.Algebra.Order.Ring.Nat

/-!
# Little-endian words in a byte string

`leBytes n v` is the `n`-byte little-endian image of `v`, and `leValue`
reads a byte string back.  `wordAt off n` reads the `n`-byte word at an
offset.  `wordAt_append_leBytes` reads a word that was written behind a
prefix of known length, which is the step of every message round trip, and
`wordAt_flatMap_leBytes` reads a word of an array.
-/

/-- The little-endian value of a byte string. -/
def leValue : List UInt8 → Nat
  | [] => 0
  | b :: bs => b.toNat + 256 * leValue bs

/-- The `n` low bytes of `v`, low byte first. -/
def leBytes : Nat → Nat → List UInt8
  | 0, _ => []
  | n + 1, v => UInt8.ofNat v :: leBytes n (v / 256)

/-- The value of the `n` bytes at offset `off`. -/
def wordAt (off n : Nat) (bytes : List UInt8) : Nat :=
  leValue ((bytes.drop off).take n)

@[simp] theorem leBytes_length (n v : Nat) : (leBytes n v).length = n := by
  induction n generalizing v with
  | zero => rfl
  | succ n ih => rw [leBytes, List.length_cons, ih]

theorem leValue_leBytes (n v : Nat) : leValue (leBytes n v) = v % 256 ^ n := by
  induction n generalizing v with
  | zero => simp [leBytes, leValue, Nat.mod_one]
  | succ n ih =>
    have hpow : 256 ^ (n + 1) = 256 * 256 ^ n := by rw [Nat.pow_succ, Nat.mul_comm]
    rw [leBytes, leValue, ih, hpow, Nat.mod_mul, UInt8.toNat_ofNat']

/-- A word written behind a prefix is read back at the length of the
prefix. -/
theorem wordAt_append_leBytes (pre : List UInt8) {post : List UInt8}
    {off n v : Nat} (hoff : pre.length = off) (hv : v < 256 ^ n) :
    wordAt off n (pre ++ (leBytes n v ++ post)) = v := by
  subst hoff
  rw [wordAt, List.drop_left,
    List.take_append_of_le_length (by rw [leBytes_length]),
    List.take_of_length_le (by rw [leBytes_length]), leValue_leBytes,
    Nat.mod_eq_of_lt hv]

theorem length_flatMap_leBytes {α : Type*} (l : List α) (n : Nat) (f : α → Nat) :
    (l.flatMap fun x => leBytes n (f x)).length = n * l.length := by
  induction l with
  | nil => rfl
  | cons x xs ih =>
    rw [List.flatMap_cons, List.length_append, leBytes_length, ih, List.length_cons,
      Nat.mul_succ, Nat.add_comm]

/-- An array of words is read back at the multiples of the word size. -/
theorem wordAt_flatMap_leBytes {α : Type*} {l : List α} {n i : Nat} {f : α → Nat}
    (hi : i < l.length) (hf : f l[i] < 256 ^ n) :
    wordAt (n * i) n (l.flatMap fun x => leBytes n (f x)) = f l[i] := by
  have hcut : l = l.take i ++ l[i] :: l.drop (i + 1) := by
    rw [← List.drop_eq_getElem_cons hi, List.take_append_drop]
  have hlength : ((l.take i).flatMap fun x => leBytes n (f x)).length = n * i := by
    rw [length_flatMap_leBytes, List.length_take, Nat.min_eq_left (Nat.le_of_lt hi)]
  have hbytes : (l.flatMap fun x => leBytes n (f x)) =
      ((l.take i).flatMap fun x => leBytes n (f x)) ++ (leBytes n (f l[i]) ++
        (l.drop (i + 1)).flatMap fun x => leBytes n (f x)) := by
    conv_lhs => rw [hcut]
    rw [List.flatMap_append, List.flatMap_cons]
  rw [hbytes]
  exact wordAt_append_leBytes _ hlength hf
