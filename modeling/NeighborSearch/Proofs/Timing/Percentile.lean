import NeighborSearch.Proofs.Binary.Scaling
import NeighborSearch.Proofs.Timing.Statistics

/-! Percentiles as order statistics.

The place of a percentile comes from a quotient, a product and two roundings. All of them keep the
order of numbers, so a greater percentile never has a smaller place (`percentilePlace_mono`), and
it is enough to know the places of 0 and of 100: the first one and the last one, as long as the
number of samples is a double itself. The sorted samples are the same for all orders in which they
may have come in (`sorted_of_perm`), and they ascend as numbers do (`Sampled.pairwise_sorted`). -/
namespace NeighborSearch.TimingLog
open Binary

/-! ### Places -/

section Places
variable {size : Nat} {p q : Float}

theorem percentilePlace_le (size : Nat) (p : Float) : percentilePlace size p ≤ size - 1 :=
  roundToNat_le _ _

theorem percentilePlace_lt (hpos : 0 < size) (p : Float) : percentilePlace size p < size := by
  have hle := percentilePlace_le size p
  omega

/-- A NaN has the first place. -/
theorem percentilePlace_of_isNaN (hp : p.isNaN = true) : percentilePlace size p = 0 :=
  roundToNat_of_nan (ofDouble_nan_mul (ofDouble_nan_div (double_isNaN_iff.1 hp) _) _)

variable (hsize : size < 2 ^ 53)
include hsize

theorem exists_last : ∃ k, ofDouble (Float.ofNat (size - 1)) = .finite false k ∧
    double.value k = (size - 1 : Nat) :=
  ofDouble_ofNat_exact (by omega)

theorem percentilePlace_zero : percentilePlace size 0.0 = 0 := by
  obtain ⟨k, hk, -⟩ := exists_last hsize
  have hshare : ofDouble (0.0 / 100.0) = .finite false 0 := by decide +kernel
  obtain ⟨l, hl, hproduct⟩ := ofDouble_mul hshare hk
  rw [double.value_zero, zero_mul, ← double.value_zero] at hl
  obtain rfl : l = 0 := hl.unique (double.rounds_value 0)
  exact roundToNat_zero (hproduct.trans (if_pos infinity_double_pos))

theorem percentilePlace_hundred : percentilePlace size 100.0 = size - 1 := by
  obtain ⟨k, hk, hvalue⟩ := exists_last hsize
  have hshare : ofDouble (100.0 / 100.0) = .finite false (power 0) := by decide +kernel
  obtain ⟨l, hl, hproduct⟩ := ofDouble_mul hshare hk
  rw [value_power, pow_zero, one_mul] at hl
  obtain rfl : l = k := hl.unique (double.rounds_value k)
  have hfinite : ofDouble (100.0 / 100.0 * Float.ofNat (size - 1)) = .finite false l :=
    hproduct.trans (if_pos (magnitude_lt_infinity hk))
  have hfloor : ⌊((size - 1 : Nat) : ℚ) + 1 / 2⌋₊ = size - 1 := by
    rw [Nat.floor_eq_iff (by positivity)]
    constructor <;> linarith
  rw [percentilePlace, roundToNat_of_finite hfinite, hvalue, hfloor, Nat.min_self]

/-- **A greater percentile has no smaller place.** -/
theorem percentilePlace_mono (h : p ≤ q) : percentilePlace size p ≤ percentilePlace size q := by
  rcases Nat.eq_zero_or_pos (size - 1) with hone | hmore
  · -- an infinity times zero is no number, but there is only one place
    have hle := percentilePlace_le size p
    omega
  · obtain ⟨k, hk, hvalue⟩ := exists_last hsize
    have hpositive : k ≠ 0 := by
      rintro rfl
      rw [double.value_zero, eq_comm, Nat.cast_eq_zero] at hvalue
      omega
    have hhundred : ofDouble 100.0 = .finite false 4636737291354636288 := by decide +kernel
    have hshare : p / 100.0 ≤ q / 100.0 := div_le_div_of_pos hhundred (by decide) h
    exact roundToNat_mono _ (mul_le_mul_of_pos hk hpositive hshare)

theorem percentilePlace_of_le_zero (hp : p ≤ 0.0) : percentilePlace size p = 0 := by
  have hle := percentilePlace_mono hsize hp
  rw [percentilePlace_zero hsize] at hle
  exact Nat.le_zero.1 hle

theorem percentilePlace_of_hundred_le (hp : 100.0 ≤ p) : percentilePlace size p = size - 1 := by
  have hle := percentilePlace_mono hsize hp
  rw [percentilePlace_hundred hsize] at hle
  exact Nat.le_antisymm (percentilePlace_le size p) hle

end Places

/-! ### Sorted samples -/

section Sorted
variable {log other : TimingLog} {x y : Float} {i j n : Nat} {p q : Float}

theorem notAbove_iff : notAbove x y = true ↔
    double.patternPlace x.toBits.toNat ≤ double.patternPlace y.toBits.toNat :=
  decide_eq_true_iff

theorem notAbove_trans (x y z : Float) (h : notAbove x y = true) (h' : notAbove y z = true) :
    notAbove x z = true := by
  rw [notAbove_iff] at *
  exact Int.le_trans h h'

theorem notAbove_total (x y : Float) : (notAbove x y || notAbove y x) = true := by
  rw [Bool.or_eq_true, notAbove_iff, notAbove_iff]
  exact Int.le_total _ _

/-- No two doubles have the same place among the bit patterns. -/
theorem notAbove_antisymm (h : notAbove x y = true) (h' : notAbove y x = true) : x = y := by
  rw [notAbove_iff] at h h'
  have hsame := Int.le_antisymm h h'
  have hbits : x.toBits.toNat = y.toBits.toNat := by
    unfold Format.patternPlace at hsame
    split at hsame <;> split at hsame <;> omega
  exact Float.toBits_inj.1 (UInt64.toNat_inj.1 hbits)

theorem sorted_perm (log : TimingLog) : log.sorted.Perm log.samples.toList :=
  List.mergeSort_perm _ _

theorem length_sorted (log : TimingLog) : log.sorted.length = log.size :=
  log.sorted_perm.length_eq

theorem sorted_ascends (log : TimingLog) : log.sorted.Pairwise (notAbove · · = true) :=
  List.pairwise_mergeSort notAbove_trans notAbove_total _

/-- The order in which samples came in does not show. -/
theorem sorted_of_perm (h : other.samples.toList.Perm log.samples.toList) :
    other.sorted = log.sorted := by
  have hperm : other.sorted.Perm log.sorted :=
    (other.sorted_perm.trans h).trans log.sorted_perm.symm
  exact hperm.eq_of_pairwise (fun _ _ _ _ => notAbove_antisymm) other.sorted_ascends
    log.sorted_ascends

theorem percentileMs_of_perm (h : other.samples.toList.Perm log.samples.toList) (p : Float) :
    other.percentileMs p = log.percentileMs p := by
  have hsize : other.size = log.size := h.length_eq
  rw [percentileMs, percentileMs, sorted_of_perm h, hsize]

theorem getElem?_percentilePlace (hpos : 0 < log.size) (p : Float) :
    log.sorted[percentilePlace log.size p]? = some (log.percentileMs p) := by
  have hlt : percentilePlace log.size p < log.sorted.length := by
    rw [length_sorted]
    exact percentilePlace_lt hpos p
  rw [percentileMs, List.getD_eq_getElem?_getD, List.getElem?_eq_getElem hlt]
  rfl

/-! ### Samples in numeric order -/

/-- Among numbers with a clear sign the order of the bit patterns is that of the numbers. -/
theorem notAbove_iff_le (hx : Bounded n x) (hy : Bounded n y) : notAbove x y = true ↔ x ≤ y := by
  obtain ⟨a, ha, -⟩ := hx
  obtain ⟨b, hb, -⟩ := hy
  have hpattern {z : Float} {k : Nat} (hz : ofDouble z = .finite false k) :
      double.patternPlace z.toBits.toNat = k := by
    have hk : z.toBits.toNat = k := (Format.pattern_of_decode z.toBits.toNat_lt hz).symm
    have hlt := magnitude_lt_infinity hz
    have hsign := double.infinity_lt_signBit
    rw [hk, Format.patternPlace, if_neg (by omega)]
  rw [notAbove_iff, hpattern ha, hpattern hb, double_le_iff_magnitude ha hb]
  exact Int.ofNat_le

namespace Sampled
variable (h : log.Sampled)
include h

theorem bounded_sorted : ∀ x ∈ log.sorted, Bounded 75 x :=
  fun x hx => h x (log.sorted_perm.mem_iff.1 hx)

theorem pairwise_sorted : log.sorted.Pairwise (· ≤ ·) :=
  log.sorted_ascends.imp_of_mem fun hx hy hle =>
    (notAbove_iff_le (h.bounded_sorted _ hx) (h.bounded_sorted _ hy)).1 hle

theorem le_of_place_le (hij : i ≤ j) (hx : log.sorted[i]? = some x)
    (hy : log.sorted[j]? = some y) : x ≤ y := by
  obtain ⟨hi, rfl⟩ := List.getElem?_eq_some_iff.1 hx
  obtain ⟨hj, rfl⟩ := List.getElem?_eq_some_iff.1 hy
  rcases Nat.lt_or_eq_of_le hij with hlt | rfl
  · exact List.pairwise_iff_getElem.1 h.pairwise_sorted i j hi hj hlt
  · obtain ⟨k, hk, -⟩ := h.bounded_sorted _ (List.getElem_mem hi)
    exact (double_le_iff_magnitude hk hk).2 (Nat.le_refl k)

end Sampled

end Sorted

/-! ### Order statistics -/

/-- What is asked of a percentile: it is the sample at its place in ascending order, whatever
order the samples came in, from the least one for a NaN and all that is not positive to the
greatest one for all from 100 on, and never smaller for a greater percentile. -/
structure OrderStatistics (log : TimingLog) : Prop where
  /-- The sorted samples are all samples, in ascending order. -/
  sorted : log.sorted.Perm log.samples.toList ∧ log.sorted.Pairwise (· ≤ ·)
  /-- No place is out of range. -/
  inRange : ∀ p, percentilePlace log.size p < log.sorted.length
  sample : ∀ p, log.sorted[percentilePlace log.size p]? = some (log.percentileMs p)
  mem : ∀ p, log.percentileMs p ∈ log.samples
  perm : ∀ other : TimingLog, other.samples.toList.Perm log.samples.toList →
    ∀ p, other.percentileMs p = log.percentileMs p
  least : ∀ p : Float, p.isNaN = true ∨ p ≤ 0.0 → ∀ x ∈ log.samples, log.percentileMs p ≤ x
  greatest : ∀ p : Float, 100.0 ≤ p → ∀ x ∈ log.samples, x ≤ log.percentileMs p
  mono : ∀ p q : Float, p ≤ q → log.percentileMs p ≤ log.percentileMs q

theorem Sampled.orderStatistics {log : TimingLog} (h : log.Sampled) (hpos : 0 < log.size)
    (hsize : log.size < 2 ^ 53) : log.OrderStatistics := by
  have hplace := getElem?_percentilePlace hpos
  have hsorted {x : Float} (hx : x ∈ log.samples) : ∃ i : Nat, log.sorted[i]? = some x :=
    List.mem_iff_getElem?.1 (log.sorted_perm.mem_iff.2 hx.val)
  constructor
  case sorted => exact ⟨log.sorted_perm, h.pairwise_sorted⟩
  case inRange =>
    intro p
    rw [length_sorted]
    exact percentilePlace_lt hpos p
  case sample => exact hplace
  case mem =>
    intro p
    have hmem := log.sorted_perm.mem_iff.1 (List.mem_of_getElem? (hplace p))
    exact Array.mem_toList_iff.1 hmem
  case perm => exact fun other => percentileMs_of_perm
  case least =>
    intro p hp x hx
    obtain ⟨i, hi⟩ := hsorted hx
    have hfirst : percentilePlace log.size p = 0 :=
      hp.elim percentilePlace_of_isNaN (percentilePlace_of_le_zero hsize)
    exact h.le_of_place_le (by omega) (hplace p) hi
  case greatest =>
    intro p hp x hx
    obtain ⟨i, hi⟩ := hsorted hx
    have hlt : i < log.size := log.length_sorted ▸ (List.getElem?_eq_some_iff.1 hi).1
    have hlast := percentilePlace_of_hundred_le hsize hp
    exact h.le_of_place_le (by omega) hi (hplace p)
  case mono =>
    intro p q hpq
    exact h.le_of_place_le (percentilePlace_mono hsize hpq) (hplace p) (hplace q)

/-- **Percentiles are order statistics** of all logs that durations make, as long as there are
samples and a double can count them. -/
theorem percentiles_are_order_statistics (warmup : Nat) (durations : List Duration)
    (hpos : 0 < (durations.foldl record (new warmup)).size)
    (hsize : (durations.foldl record (new warmup)).size < 2 ^ 53) :
    (durations.foldl record (new warmup)).OrderStatistics :=
  (sampled_foldl_record warmup durations).orderStatistics hpos hsize

/-- Three samples after a warm-up of one. -/
theorem percentiles_are_order_statistics_of_three :
    let log := [⟨9, 0⟩, ⟨0, 300000000⟩, ⟨0, 100000000⟩, ⟨0, 200000000⟩].foldl record (new 1)
    0 < log.size ∧ log.size < 2 ^ 53 ∧ log.size = 3 ∧ log.OrderStatistics :=
  ⟨by decide, by decide, rfl,
    percentiles_are_order_statistics 1
      [⟨9, 0⟩, ⟨0, 300000000⟩, ⟨0, 100000000⟩, ⟨0, 200000000⟩] (by decide) (by decide)⟩

end NeighborSearch.TimingLog
