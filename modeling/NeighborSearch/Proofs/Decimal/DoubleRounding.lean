import NeighborSearch.Proofs.Decimal.Scaling
import NeighborSearch.Proofs.Decimal.Separation

/-! Reading a shortest decimal by way of double precision.

A decimal that stands for a single-precision value is scaled in double precision and then rounded
again. The first result is on the same side of each midpoint as the decimal: `shortest` has taken
it from a coarse grid if it is next to a midpoint at all (`coarse_of_near_high`,
`coarse_of_near_low`), and then it is farther away from there than the errors reach
(`eq_midpoint_or_mem`). A midpoint itself is a double, and its power of ten is exact, so that it is
read without any error (`exponent_le_of_eq`). -/
namespace NeighborSearch.Decimal
open Binary

/-! ### Next to a midpoint the grid is coarse -/

section Coarse
variable {k n : Nat} {place : Int} (hnear : (Interval.around single (k + 1)).Near place n)
include hnear

theorem coarse_of_near_high (hclose : Close 2 (single.midpoint (k + 1)) (n * 10 ^ place)) :
    2 * 2 ^ single.exponent (k + 1) ≤ 3 * (10 : ℚ) ^ place := by
  have hunit := single.unit_pos (k + 1)
  have hvalue := single.value_lt_units (k + 1)
  have hbelow : (2 : ℚ) ^ single.exponent (k + 1) ≤ 2 * 2 ^ single.exponent k := by
    have hle := zpow_le_zpow_right₀ (by norm_num : (1 : ℚ) ≤ 2) (single.exponent_succ_le k)
    rw [zpow_add_one₀ two_ne_zero] at hle
    linarith
  have h := hclose.left
  have hfar := hnear.2
  rw [Interval.value_around, Interval.low_around, single.value_succ] at hfar
  rw [Format.midpoint, single.value_succ, Nat.cast_two] at h
  rw [single.value_succ, show single.fractionBits = 23 from rfl] at hvalue
  rw [Format.midpoint] at hfar
  rcases hfar (by linarith) with hfar | hfar <;> linarith

theorem coarse_of_near_low (hclose : Close 2 (single.midpoint k) (n * 10 ^ place)) :
    2 * 2 ^ single.exponent k ≤ 3 * (10 : ℚ) ^ place := by
  have hunit := single.unit_pos k
  have hvalue := single.value_lt_units k
  have habove : (2 : ℚ) ^ single.exponent k ≤ 2 ^ single.exponent (k + 1) :=
    zpow_le_zpow_right₀ (by norm_num) (single.exponent_mono (Nat.le_succ k))
  have h := hclose.right
  have hfar := hnear.1
  rw [Interval.value_around, Interval.high_around, Format.midpoint, single.value_succ] at hfar
  rw [Format.midpoint, Nat.cast_two] at h
  rw [show single.fractionBits = 23 from rfl] at hvalue
  rcases hfar (by linarith) with hfar | hfar <;> linarith

end Coarse

/-! ### Midpoints are exact -/

/-- A power of five that divides a number has no more bits than this number. -/
theorem le_of_mul_two_pow_eq {a c n t : Nat} (ha0 : 0 < a) (ha : a < 2 ^ 53)
    (h : a * 2 ^ t = c * 10 ^ n) : n ≤ 22 := by
  have hdvd : 5 ^ n ∣ a := by
    refine (Nat.Coprime.pow n t (by decide)).dvd_of_dvd_mul_right (n := 2 ^ t) ?_
    rw [h]
    exact (pow_dvd_pow_of_dvd (by decide) n).mul_left c
  by_contra hlt
  have hle : 5 ^ 23 ≤ a :=
    (Nat.pow_le_pow_right (by decide) (by omega)).trans (Nat.le_of_dvd ha0 hdvd)
  omega

theorem exponent_le_of_eq {w m : Nat} (hw0 : 0 < w) (hw : w < 2 ^ 53) (hm0 : 0 < m)
    (hm : m < 2 ^ 53) {e s : Int} (h : (w : ℚ) * 10 ^ e = m * 2 ^ s) : -22 ≤ e ∧ e ≤ 22 := by
  have hwhole : w * 10 ^ e.toNat * 2 ^ (-s).toNat = 10 ^ (-e).toNat * m * 2 ^ s.toNat := by
    rw [zpow_eq_div (by norm_num) e, zpow_eq_div two_ne_zero s] at h
    field_simp at h
    exact_mod_cast h
  rcases le_total 0 e with hsign | hsign
  · have hle : e.toNat ≤ 22 := by
      rw [show (-e).toNat = 0 by omega, pow_zero, one_mul] at hwhole
      exact le_of_mul_two_pow_eq hm0 hm (hwhole.symm.trans (mul_right_comm _ _ _))
    omega
  · have hle : (-e).toNat ≤ 22 := by
      rw [show e.toNat = 0 by omega, pow_zero, mul_one] at hwhole
      exact le_of_mul_two_pow_eq (c := m * 2 ^ s.toNat) hw0 hw (by rw [hwhole]; ring)
    omega

/-- A decimal that is a midpoint is scaled to itself. -/
theorem value_eq_of_eq_midpoint {w j k : Nat} {e : Int} (hw0 : 0 < w) (hw : w < 2 ^ 53)
    (heq : (w : ℚ) * 10 ^ e = single.midpoint j)
    (hexact : -22 ≤ e → e ≤ 22 → double.Rounds (w * 10 ^ e) k) :
    double.value k = single.midpoint j := by
  obtain ⟨i, m, rfl, hi, hm⟩ := single.exists_canonical j
  have hbits : 2 * 2 ^ single.fractionBits = 2 ^ 24 := rfl
  have hmid := Format.midpoint_canonical hi hm
  obtain ⟨hlow, hhigh⟩ := exponent_le_of_eq hw0 hw (Nat.succ_pos (2 * m)) (by omega)
    (heq.trans hmid)
  obtain ⟨l, hl⟩ := double.exists_value (m := 2 * m + 1)
    (by have : 2 * 2 ^ double.fractionBits = 2 ^ 53 := rfl; omega)
    (e := single.leastExponent + i - 1)
    (by have : single.leastExponent = -149 := rfl; rw [leastExponent_double]; omega)
  have hrounds := hexact hlow hhigh
  rw [heq, hmid, ← hl] at hrounds
  rw [hmid, ← hl, hrounds.unique (double.rounds_value l)]

/-! ### The second rounding -/

/-- **A shortest decimal that is scaled in double precision still rounds to its value**, but for
the four values next to a near miss. -/
theorem rounds_scaled {k : Nat} (hk : k + 1 < single.infinity) (hk₀ : k ∉ nearMisses)
    (hk₁ : k + 1 ∉ nearMisses) {w : Nat} (hw0 : 0 < w) (hw : w < 2 ^ 53) {e : Int}
    (hvalue : value (shortest single (k + 1)) = w * 10 ^ e) {l : Nat}
    (hclose : Close 2 (double.value l) (w * 10 ^ e))
    (hexact : -22 ≤ e → e ≤ 22 → double.Rounds (w * 10 ^ e) l) :
    single.Rounds (double.value l) (k + 1) := by
  obtain ⟨hrounds, -, -, n, place, hgrid, -, hnear⟩ :=
    shortest_spec (f := single) (by decide) (by decide) k
  have hmid := fun j (heq : (w : ℚ) * 10 ^ e = single.midpoint j) =>
    value_eq_of_eq_midpoint hw0 hw heq hexact
  rw [← hvalue] at hclose hmid
  rw [hgrid] at hrounds hclose hmid
  have hM : ∀ j, 0 ≤ single.midpoint j := fun j =>
    (single.value_nonneg j).trans (single.value_lt_midpoint j).le
  refine Format.Rounds.of_neighbor (fun j hj => ?_) ?_
  · obtain rfl : k = j := by omega
    rw [or_iff_not_imp_left, not_lt]
    intro hle
    have hnext := hclose.of_le_left (hM k) hle (hrounds.midpoint_le (Nat.lt_succ_self k))
    have heq := (eq_midpoint_or_mem (by omega) (coarse_of_near_low hnear hnext) hnext).resolve_right
      hk₀
    refine ⟨(hmid k heq).symm, ?_⟩
    rcases hrounds.above k (Nat.lt_succ_self k) with hlt | ⟨-, heven⟩
    · exact absurd heq hlt.ne'
    · exact heven
  · rw [or_iff_not_imp_left, not_lt]
    intro hle
    have hD : (0 : ℚ) ≤ n * 10 ^ place := mul_nonneg n.cast_nonneg (ten_zpow_pos place).le
    have hnext := (hclose.symm.of_le_right hD hrounds.le_midpoint hle).symm
    have heq := (eq_midpoint_or_mem hk (coarse_of_near_high hnear hnext) hnext).resolve_right hk₁
    refine ⟨hmid (k + 1) heq, ?_⟩
    rcases hrounds.below with hlt | ⟨-, heven⟩
    · exact absurd heq hlt.ne
    · exact heven

end NeighborSearch.Decimal
