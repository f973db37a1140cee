import NeighborSearch.Proofs.Binary.Bounded
import NeighborSearch.Proofs.Timing

/-! How great a statistic may be.

No sample is greater than `2 ^ 75` milliseconds, which is more than any duration has. So no sum of
samples is greater than `2 ^ 128`, however many there are, and no mean of them; no squared deviation
from the mean is greater than `2 ^ 256`, and so on to the root of their mean (`bounded_stdMs`). None
of them comes near the greatest double, and none is negative. -/
namespace NeighborSearch
open Binary

/-! ### Samples -/

namespace Duration

theorem bounded_inSeconds (d : Duration) : Bounded 65 d.inSeconds := by
  have hseconds : Bounded 64 d.seconds.toFloat := by
    obtain ⟨k, hk, h⟩ := ofDouble_toFloat d.seconds
    refine bounded_of_rounds (by decide) h hk (le_half_unit_above 64 ?_)
    exact_mod_cast d.seconds.toNat_lt.le
  have hnanoseconds : Bounded 64 d.nanoseconds.toFloat := by
    obtain ⟨k, hk, h⟩ := decode_ofNat (F := .binary64) (by decide) d.nanoseconds.toNat
    refine bounded_of_rounds (by decide) h hk (le_half_unit_above 64 ?_)
    exact_mod_cast (d.nanoseconds.toNat_lt.trans (by decide)).le
  have hbillion : AtLeastOne 1000000000.0 :=
    ⟨4741671816366391296, by decide +kernel, one_le_value_iff.2 (by decide)⟩
  exact hseconds.add (hnanoseconds.div hbillion (by decide)) (by decide)

theorem bounded_inMilliseconds (d : Duration) : Bounded 75 d.inMilliseconds := by
  have hthousand : Bounded 10 1000.0 :=
    bounded_of_magnitude (k := 4652007308841189376) (by decide +kernel) (by decide)
  exact d.bounded_inSeconds.mul hthousand (by decide)

end Duration

namespace TimingLog
variable {xs : List Float} {x : Float} {n : Nat}

/-- All samples are ones that a duration can give. -/
def Sampled (log : TimingLog) : Prop := ∀ x ∈ log.samples.toList, Bounded 75 x

theorem sampled_foldl_record (warmup : Nat) (durations : List Duration) :
    (durations.foldl record (new warmup)).Sampled := by
  intro x hx
  rw [samples_foldl_record] at hx
  obtain ⟨d, -, rfl⟩ := List.mem_map.1 hx
  exact d.bounded_inMilliseconds

/-! ### Sums and means -/

/-- A term more does not matter to a sum that may be so great. -/
theorem bounded_foldl_add (hn : n + 53 ≤ 1023) (hx : Bounded (n + 53) x)
    (h : ∀ y ∈ xs, Bounded n y) : Bounded (n + 53) (xs.foldl (· + ·) x) := by
  induction xs generalizing x with
  | nil => exact hx
  | cons y ys ih =>
    obtain ⟨hy, hys⟩ := List.forall_mem_cons.1 h
    exact ih (hx.add_small hy hn) hys

theorem bounded_sum (hn : n + 53 ≤ 1023) (hne : xs ≠ []) (h : ∀ y ∈ xs, Bounded n y) :
    Bounded (n + 53) (sum xs) := by
  cases xs with
  | nil => exact absurd rfl hne
  | cons y ys =>
    obtain ⟨hy, hys⟩ := List.forall_mem_cons.1 h
    have hfirst : Bounded (n + 53) (-0.0 + y) :=
      (hy.neg_zero_add (by omega)).mono (Nat.le_add_right n 53)
    show Bounded (n + 53) (ys.foldl (· + ·) (-0.0 + y))
    exact bounded_foldl_add hn hfirst hys

theorem bounded_meanOf (hn : n + 53 ≤ 1023) (h : ∀ y ∈ xs, Bounded n y) :
    Bounded (n + 53) (meanOf xs) := by
  rw [meanOf]
  split
  · exact bounded_zero _
  · rename_i hne
    have hne' : xs ≠ [] := by simpa using hne
    exact (bounded_sum hn hne' h).div (atLeastOne_ofNat (List.length_pos_iff.2 hne')) hn

/-! ### Statistics -/

namespace Sampled
variable {log : TimingLog} (h : log.Sampled)
include h

theorem bounded_meanMs : Bounded 128 log.meanMs := bounded_meanOf (by decide) h

theorem bounded_stdMs : Bounded 310 log.stdMs := by
  have hdeviations : ∀ y ∈ log.samples.toList.map fun x => (x - log.meanMs) * (x - log.meanMs),
      Bounded 256 y := by
    intro y hy
    obtain ⟨x, hx, rfl⟩ := List.mem_map.1 hy
    exact ((h x hx).mono (by decide)).sub_mul_self h.bounded_meanMs (by decide)
  exact (bounded_meanOf (by decide) hdeviations).sqrt (by decide)

theorem bounded_percentileMs (p : Float) : Bounded 75 (log.percentileMs p) := by
  rw [percentileMs, List.getD_eq_getElem?_getD]
  cases hplace : log.sorted[percentilePlace log.size p]? with
  | none => exact bounded_zero _
  | some x => exact h x (List.mem_mergeSort.1 (List.mem_of_getElem? hplace))

end Sampled

end TimingLog

end NeighborSearch
