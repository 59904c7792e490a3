import Hfior.Library.Interpolation
import Mathlib.Data.List.GetD
import Mathlib.Data.List.Sort
import Mathlib.Data.Rat.Floor
import Mathlib.Order.Interval.Set.Basic

/-!
# The reported statistics

The client reports percentiles and slow-frame means with the functions of
`common.c`; the game benchmark has its own `Percentile` and `LowFps`.  Here
both are computed in exact rational arithmetic, where the two implementations
agree (`reported_statistics_agree`).

A read of an array is `none` when its index is outside.
-/

namespace Hfior

/-- What `qsort` with `compare_u64` leaves, and the ascending `std::sort`. -/
def ascending (data : List UInt64) : List UInt64 :=
  data.insertionSort (· ≤ ·)

/-- The `std::sort` by `std::greater`. -/
def descending (data : List UInt64) : List UInt64 :=
  data.insertionSort (· ≥ ·)

/-- The weighted sum of two elements that both percentile functions end in. -/
def weightedSum (data : List UInt64) (low high : ℕ) (fraction : ℚ) : Option ℚ := do
  let a ← data[low]?
  let b ← data[high]?
  return a.toNat * (1 - fraction) + b.toNat * fraction

/-- The result, and the vector as the call leaves it. -/
def hfiorPercentileNs (vec : List UInt64) (percentile : ℚ) : Option ℚ × List UInt64 :=
  if vec.length = 0 then (some 0, vec)
  else
    let percentile := if percentile < 0 then 0 else percentile
    let percentile := if 100 < percentile then 100 else percentile
    let percentile := percentile / 100
    let data := ascending vec
    let rank := percentile * (data.length - 1 : ℕ)
    let lo := ⌊rank⌋₊
    let hi := ⌈rank⌉₊
    let fraction := rank - lo
    (weightedSum data lo hi fraction, data)

/-- How many of the `length` largest samples the mean is over. -/
def worstCount (length : ℕ) (fraction : ℚ) : ℕ :=
  let fraction := if fraction ≤ 0 then 1 / (length : ℚ) else fraction
  let fraction := if 1 < fraction then 1 else fraction
  let count := ⌈fraction * length⌉₊
  if count = 0 then 1 else count

/-- The sum runs from `length - count`, which never wraps (`worstCount_le`). -/
def hfiorWorstFractionMeanNs (vec : List UInt64) (fraction : ℚ) : ℚ × List UInt64 :=
  if vec.length = 0 then (0, vec)
  else
    let data := ascending vec
    let count := worstCount data.length fraction
    let start := data.length - count
    let sum : ℚ := ((data.drop start).map fun sample => (sample.toNat : ℚ)).sum
    (sum / count, data)

/-- `fps_from_ns` of the client. -/
def fpsFromNs (ns : ℚ) : ℚ :=
  if 0 < ns then 1000000000 / ns else 0

/-- `Percentile` of the game, which sorts a copy. -/
def percentile (values : List UInt64) (percentile : ℚ) : Option ℚ :=
  if values.length = 0 then some 0
  else
    let sorted := ascending values
    let position := percentile * (sorted.length - 1 : ℕ)
    let lower := ⌊position⌋₊
    let upper := min (lower + 1) (sorted.length - 1)
    let fraction := position - lower
    weightedSum sorted lower upper fraction

/-- `LowFps` of the game: the range to sum has to end inside the copy. -/
def lowFps (frameTimes : List UInt64) (slowFraction : ℚ) : Option ℚ :=
  if frameTimes.length = 0 then some 0
  else
    let sorted := descending frameTimes
    let count := max 1 ⌈sorted.length * slowFraction⌉₊
    if count ≤ sorted.length then
      let total : ℚ := ((sorted.take count).map fun sample => (sample.toNat : ℚ)).sum
      let mean := total / count
      some (if 0 < mean then 1000000000 / mean else 0)
    else none

variable {samples : List UInt64} {q f : ℚ}

@[simp] theorem length_ascending (data : List UInt64) :
    (ascending data).length = data.length :=
  List.length_insertionSort _ data

@[simp] theorem length_descending (data : List UInt64) :
    (descending data).length = data.length :=
  List.length_insertionSort _ data

theorem pairwise_ascending (data : List UInt64) : (ascending data).Pairwise (· ≤ ·) :=
  List.pairwise_insertionSort _ data

theorem mem_ascending {sample : UInt64} : sample ∈ ascending samples ↔ sample ∈ samples :=
  List.mem_insertionSort _

/-- A list has one descending order, its ascending one backwards. -/
theorem descending_eq_reverse (data : List UInt64) :
    descending data = (ascending data).reverse := by
  have hbackwards : (ascending data).reverse.Pairwise (· ≥ ·) :=
    List.pairwise_reverse.2 (pairwise_ascending data)
  have hperm : (descending data).Perm (ascending data).reverse :=
    ((List.perm_insertionSort _ data).trans (List.perm_insertionSort _ data).symm).trans
      (List.reverse_perm _).symm
  exact hperm.eq_of_pairwise' (List.pairwise_insertionSort _ data) hbackwards

/-! ## The sorted samples as a sequence -/

/-- The sorted samples, held at the largest one behind their end. -/
def heldAt (samples : List UInt64) (n : ℕ) : ℚ :=
  ((ascending samples).getD (min n (samples.length - 1)) 0).toNat

theorem heldAt_of_lt {n : ℕ} (hn : n < (ascending samples).length) :
    heldAt samples n = (ascending samples)[n].toNat := by
  have hindex : n ≤ samples.length - 1 := by
    rw [length_ascending] at hn
    omega
  unfold heldAt
  rw [Nat.min_eq_left hindex, List.getD_eq_getElem]

theorem heldAt_monotone (hsome : samples ≠ []) : Monotone (heldAt samples) := by
  have hpos := List.length_pos_iff.2 hsome
  have hsorted := List.pairwise_iff_getElem.1 (pairwise_ascending samples)
  intro m n hmn
  unfold heldAt
  rw [List.getD_eq_getElem _ _ (by simp; omega), List.getD_eq_getElem _ _ (by simp; omega),
    Nat.cast_le]
  rcases (min_le_min_right (samples.length - 1) hmn).eq_or_lt with hsame | hlater
  · simp only [hsame, le_refl]
  · exact hsorted _ _ _ _ hlater

theorem heldAt_mem (hsome : samples ≠ []) (n : ℕ) :
    ∃ sample ∈ samples, heldAt samples n = sample.toNat := by
  have hpos := List.length_pos_iff.2 hsome
  have hindex : min n (samples.length - 1) < (ascending samples).length := by simp; omega
  refine ⟨_, mem_ascending.1 (List.getElem_mem hindex), ?_⟩
  unfold heldAt
  rw [List.getD_eq_getElem]

/-- The sequence starts at the least sample. -/
theorem heldAt_zero_le {sample : UInt64} (hmem : sample ∈ samples) :
    heldAt samples 0 ≤ sample.toNat := by
  obtain ⟨n, hn, rfl⟩ := List.getElem_of_mem (mem_ascending.2 hmem)
  have hsome : samples ≠ [] := List.ne_nil_of_mem hmem
  rw [← heldAt_of_lt hn]
  exact heldAt_monotone hsome n.zero_le

/-- It is held at the greatest one. -/
theorem le_heldAt_last {sample : UInt64} (hmem : sample ∈ samples) :
    (sample.toNat : ℚ) ≤ heldAt samples (samples.length - 1) := by
  obtain ⟨n, hn, rfl⟩ := List.getElem_of_mem (mem_ascending.2 hmem)
  have hsome : samples ≠ [] := List.ne_nil_of_mem hmem
  rw [← heldAt_of_lt hn]
  rw [length_ascending] at hn
  exact heldAt_monotone hsome (by omega)

/-- Two indices inside the samples read two values of the sequence. -/
theorem weightedSum_ascending {low high : ℕ} (hlow : low < samples.length)
    (hhigh : high < samples.length) (part : ℚ) :
    weightedSum (ascending samples) low high part
      = some (heldAt samples low * (1 - part) + heldAt samples high * part) := by
  have hread : ∀ n < samples.length,
      ∃ sample, (ascending samples)[n]? = some sample ∧ heldAt samples n = sample.toNat := by
    intro n hn
    rw [← length_ascending samples] at hn
    exact ⟨_, List.getElem?_eq_getElem hn, heldAt_of_lt hn⟩
  obtain ⟨a, ha, hlow⟩ := hread low hlow
  obtain ⟨b, hb, hhigh⟩ := hread high hhigh
  simp only [weightedSum, ha, hb, hlow, hhigh]
  rfl

/-! ## Percentiles -/

/-- The place of the percentile `q` in the sorted samples. -/
def rankOf (samples : List UInt64) (q : ℚ) : ℚ := q * (samples.length - 1 : ℕ)

theorem rankOf_nonneg (hq : 0 ≤ q) : 0 ≤ rankOf samples q :=
  mul_nonneg hq (Nat.cast_nonneg _)

theorem rankOf_le (samples : List UInt64) (hq : q ≤ 1) :
    rankOf samples q ≤ (samples.length - 1 : ℕ) :=
  mul_le_of_le_one_left (Nat.cast_nonneg _) hq

/-- The interpolated value at the rank. -/
def quantile (samples : List UInt64) (q : ℚ) : ℚ :=
  Interpolation.lerp (heldAt samples) (rankOf samples q)

theorem floor_rankOf_lt (hsome : samples ≠ []) (hq : q ≤ 1) :
    ⌊rankOf samples q⌋₊ < samples.length := by
  have hpos := List.length_pos_iff.2 hsome
  have hle := Nat.floor_le_of_le (rankOf_le samples hq)
  omega

theorem ceil_rankOf_lt (hsome : samples ≠ []) (hq : q ≤ 1) :
    ⌈rankOf samples q⌉₊ < samples.length := by
  have hpos := List.length_pos_iff.2 hsome
  have hle := Nat.ceil_le.2 (rankOf_le samples hq)
  omega

/-- Behind the last sample the clamped index holds the same value. -/
theorem heldAt_clamp (samples : List UInt64) (n : ℕ) :
    heldAt samples (min n (samples.length - 1)) = heldAt samples n := by
  unfold heldAt
  rw [min_assoc, min_self]

theorem hfiorPercentileNs_eq (hsome : samples ≠ []) (hlow : 0 ≤ q) (hhigh : q ≤ 1) :
    (hfiorPercentileNs samples (100 * q)).1 = some (quantile samples q) := by
  have hnonneg : ¬ 100 * q < 0 := by linarith
  have hcapped : ¬ 100 < 100 * q := by linarith
  have hscale : 100 * q / 100 = q := by ring
  have hempty : samples.length ≠ 0 := List.length_eq_zero_iff.not.2 hsome
  simp only [hfiorPercentileNs, if_neg hempty, if_neg hnonneg, if_neg hcapped, hscale,
    length_ascending]
  rw [← rankOf, weightedSum_ascending (floor_rankOf_lt hsome hhigh)
    (ceil_rankOf_lt hsome hhigh), quantile, ← Interpolation.lerp_ceil _ (rankOf_nonneg hlow)]
  rfl

theorem percentile_eq (hsome : samples ≠ []) (hhigh : q ≤ 1) :
    percentile samples q = some (quantile samples q) := by
  have hempty : samples.length ≠ 0 := List.length_eq_zero_iff.not.2 hsome
  have hupper : min (⌊rankOf samples q⌋₊ + 1) (samples.length - 1) < samples.length := by omega
  simp only [percentile, if_neg hempty, length_ascending]
  rw [← rankOf, weightedSum_ascending (floor_rankOf_lt hsome hhigh) hupper, heldAt_clamp]
  rfl

theorem quantile_monotoneOn (hsome : samples ≠ []) :
    MonotoneOn (quantile samples) (Set.Icc 0 1) := by
  intro q hq r hr hqr
  exact Interpolation.lerp_mono (heldAt_monotone hsome) (rankOf_nonneg hq.1)
    (mul_le_mul_of_nonneg_right hqr (Nat.cast_nonneg _))

theorem heldAt_zero_le_quantile (hsome : samples ≠ []) (hq : 0 ≤ q) :
    heldAt samples 0 ≤ quantile samples q :=
  (heldAt_monotone hsome (Nat.zero_le _)).trans
    (Interpolation.lerp_between (heldAt_monotone hsome) (rankOf_nonneg hq)).1

theorem quantile_le_heldAt_last (hsome : samples ≠ []) (hq : 0 ≤ q) :
    quantile samples q ≤ heldAt samples (samples.length - 1) := by
  have hupper : quantile samples q ≤ heldAt samples (⌊rankOf samples q⌋₊ + 1) :=
    (Interpolation.lerp_between (heldAt_monotone hsome) (rankOf_nonneg hq)).2
  rw [← heldAt_clamp] at hupper
  exact hupper.trans (heldAt_monotone hsome (min_le_right _ _))

/-! ## The mean of the slowest frames -/

theorem ite_zero_eq_max (count : ℕ) : (if count = 0 then 1 else count) = max 1 count := by
  split <;> omega

theorem worstCount_le {length : ℕ} (hpos : 0 < length) (f : ℚ) :
    worstCount length f ≤ length := by
  have hcapped : ∀ g : ℚ, ⌈(if 1 < g then 1 else g) * length⌉₊ ≤ length := by
    intro g
    refine Nat.ceil_le.2 (mul_le_of_le_one_left (Nat.cast_nonneg _) ?_)
    split_ifs with hlarge
    · exact le_rfl
    · exact le_of_not_gt hlarge
  simp only [worstCount, ite_zero_eq_max]
  exact max_le hpos (hcapped _)

/-- The two ways to round the number of slow frames: no fraction is one frame
for both. -/
theorem worstCount_eq_max {length : ℕ} (hpos : 0 < length) (hlow : 0 ≤ f) (hhigh : f ≤ 1) :
    worstCount length f = max 1 ⌈length * f⌉₊ := by
  have hlength : (1 : ℚ) ≤ length := Nat.one_le_cast.2 hpos
  simp only [worstCount, ite_zero_eq_max]
  rcases hlow.eq_or_lt with hzero | hsome
  · have hone : ¬ 1 < 1 / (length : ℚ) := by
      rw [not_lt, div_le_one (by linarith)]
      exact hlength
    have hcancel : 1 / (length : ℚ) * length = 1 := div_mul_cancel₀ 1 (by linarith)
    rw [← hzero, if_pos le_rfl, if_neg hone, hcancel, mul_zero, Nat.ceil_one, Nat.ceil_zero]
    rfl
  · rw [if_neg (not_le.2 hsome), if_neg (not_lt.2 hhigh), mul_comm]

/-- The head of the descending order is the tail of the ascending one. -/
theorem sum_take_descending {count : ℕ} :
    (((descending samples).take count).map fun sample => (sample.toNat : ℚ)).sum
      = (((ascending samples).drop (samples.length - count)).map
          fun sample => (sample.toNat : ℚ)).sum := by
  rw [descending_eq_reverse, List.take_reverse, length_ascending, List.map_reverse,
    List.sum_reverse]

theorem lowFps_eq (hsome : samples ≠ []) (hlow : 0 ≤ f) (hhigh : f ≤ 1) :
    lowFps samples f = some (fpsFromNs (hfiorWorstFractionMeanNs samples f).1) := by
  have hpos := List.length_pos_iff.2 hsome
  have hcount := worstCount_eq_max hpos hlow hhigh
  have hinside := worstCount_le hpos f
  simp only [lowFps, hfiorWorstFractionMeanNs, if_neg hpos.ne', length_ascending,
    length_descending, ← hcount, if_pos hinside, sum_take_descending, fpsFromNs]

/-! ## The two implementations agree -/

/-- The least and the greatest of the samples bound the value of every
percentile, and a larger percentile has no smaller value. -/
structure IsQuantile (samples : List UInt64) (value : ℚ → ℚ) : Prop where
  least : ∃ least ∈ samples, (∀ sample ∈ samples, least ≤ sample) ∧
    ∀ q ∈ Set.Icc (0 : ℚ) 1, (least.toNat : ℚ) ≤ value q
  greatest : ∃ greatest ∈ samples, (∀ sample ∈ samples, sample ≤ greatest) ∧
    ∀ q ∈ Set.Icc (0 : ℚ) 1, value q ≤ (greatest.toNat : ℚ)
  mono : MonotoneOn value (Set.Icc 0 1)

theorem quantile_isQuantile (hsome : samples ≠ []) :
    IsQuantile samples (quantile samples) where
  least := by
    obtain ⟨least, hmem, hvalue⟩ := heldAt_mem hsome 0
    refine ⟨least, hmem, fun sample hsample => ?_, fun q hq => ?_⟩
    · have hle := heldAt_zero_le hsample
      rw [hvalue, Nat.cast_le] at hle
      exact hle
    · rw [← hvalue]
      exact heldAt_zero_le_quantile hsome hq.1
  greatest := by
    obtain ⟨greatest, hmem, hvalue⟩ := heldAt_mem hsome (samples.length - 1)
    refine ⟨greatest, hmem, fun sample hsample => ?_, fun q hq => ?_⟩
    · have hle := le_heldAt_last hsample
      rw [hvalue, Nat.cast_le] at hle
      exact hle
    · rw [← hvalue]
      exact quantile_le_heldAt_last hsome hq.1
  mono := quantile_monotoneOn hsome

/-- Every percentile reads inside the samples and has the same value in both
implementations, and so has every slow-frame rate. -/
theorem reported_statistics_agree (samples : List UInt64) (hsome : samples ≠ []) :
    (∃ value, IsQuantile samples value ∧ ∀ q, 0 ≤ q → q ≤ 1 →
      (hfiorPercentileNs samples (100 * q)).1 = some (value q) ∧
        percentile samples q = some (value q)) ∧
      ∀ f, 0 ≤ f → f ≤ 1 →
        lowFps samples f = some (fpsFromNs (hfiorWorstFractionMeanNs samples f).1) := by
  refine ⟨⟨quantile samples, quantile_isQuantile hsome, fun q hlow hhigh => ?_⟩,
    fun f hlow hhigh => lowFps_eq hsome hlow hhigh⟩
  exact ⟨hfiorPercentileNs_eq hsome hlow hhigh, percentile_eq hsome hhigh⟩

theorem reported_statistics_agree_three :
    [30, 10, 20] ≠ ([] : List UInt64) ∧
      ∃ value, IsQuantile [30, 10, 20] value ∧
        (hfiorPercentileNs [30, 10, 20] (100 * (3 / 4))).1 = some (value (3 / 4)) ∧
        percentile [30, 10, 20] (3 / 4) = some (value (3 / 4)) := by
  have hsome : [30, 10, 20] ≠ ([] : List UInt64) := by decide
  obtain ⟨⟨value, hquantile, hvalue⟩, -⟩ := reported_statistics_agree [30, 10, 20] hsome
  exact ⟨hsome, value, hquantile, hvalue (3 / 4) (by norm_num) (by norm_num)⟩

end Hfior
