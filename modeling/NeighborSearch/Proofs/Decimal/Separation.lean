import NeighborSearch.Proofs.Binary.Double
import NeighborSearch.Proofs.Decimal.Shortest

/-! Short decimals keep away from the midpoints.

Where a decimal of few digits lies next to a midpoint of single precision, the quotient of two
small whole numbers is close to the quotient `10 ^ place / 2 ^ (exponent - 1)`. Two neighbors in a
Farey sequence, one on either side of it, leave no room for a quotient of small numbers between
them (`Bracket.le_or_le`), so there are no other candidates if neither of the two is close itself.
One pair of neighbors for every exponent of the format is looked for (`Bracket.search`) and checked
(`Bracket.Settles`); nothing depends on how the search goes. Two midpoints remain that a decimal
comes as close to as two roundings may bring it (`eq_midpoint_or_mem`). -/
namespace NeighborSearch.Decimal
open Binary

/-! ### Neighbors -/

/-- Two fractions. -/
structure Bracket where
  lowNum : Nat
  lowDen : Nat
  highNum : Nat
  highDen : Nat

namespace Bracket
variable (b : Bracket)

section Search
variable (num den limit : Nat)

/-- How far the number `num / den` is from the two fractions, brought to whole numbers. -/
def below : Nat := num * b.lowDen - den * b.lowNum

def above : Nat := den * b.highNum - num * b.highDen

/-- The mediant of the fractions takes the place of the lower one, as long as it is not above the
number and its denominator keeps to the limit. -/
def raiseLow : Bracket :=
  let steps := min (b.below num den / b.above num den) ((limit - b.lowDen) / b.highDen)
  { b with lowNum := b.lowNum + steps * b.highNum, lowDen := b.lowDen + steps * b.highDen }

/-- The same for the upper fraction, which stays above the number. -/
def lowerHigh : Bracket :=
  let room := (limit - b.highDen) / b.lowDen
  let steps := if b.below num den = 0 then room
    else min ((b.above num den - 1) / b.below num den) room
  { b with highNum := b.highNum + steps * b.lowNum, highDen := b.highDen + steps * b.lowDen }

def search : Nat → Bracket → Bracket
  | 0, b => b
  | fuel + 1, b => search fuel ((b.raiseLow num den limit).lowerHigh num den limit)

end Search

/-- Between neighbors there is no fraction with a small denominator. -/
theorem le_or_le (hb : b.highNum * b.lowDen = b.lowNum * b.highDen + 1) {m n : Nat}
    (hn : n < b.lowDen + b.highDen) :
    m * b.lowDen ≤ b.lowNum * n ∨ b.highNum * n ≤ m * b.highDen := by
  by_contra hboth
  rw [not_or, not_le, not_le] at hboth
  obtain ⟨hlow, hhigh⟩ := hboth
  have hsum : (n : Int) = b.lowDen * (b.highNum * n - m * b.highDen) +
      b.highDen * (m * b.lowDen - b.lowNum * n) := by
    have hb' : (b.highNum * b.lowDen : Int) = b.lowNum * b.highDen + 1 := by exact_mod_cast hb
    linear_combination -(n : Int) * hb'
  have hlow' : (1 : Int) ≤ m * b.lowDen - b.lowNum * n := by
    have : (b.lowNum * n : Int) < m * b.lowDen := by exact_mod_cast hlow
    omega
  have hhigh' : (1 : Int) ≤ b.highNum * n - m * b.highDen := by
    have : (m * b.highDen : Int) < b.highNum * n := by exact_mod_cast hhigh
    omega
  have h₁ := mul_le_mul_of_nonneg_left hhigh' (Int.natCast_nonneg b.lowDen)
  have h₂ := mul_le_mul_of_nonneg_left hlow' (Int.natCast_nonneg b.highDen)
  omega

/-- The neighbors are farther away from the number `num / den` than two roundings may bring it. -/
def LowFar (num den : Nat) : Prop := b.lowNum * den * 2 ^ 52 < b.lowDen * num * (2 ^ 52 - 1)

def HighFar (num den : Nat) : Prop := b.highDen * num * 2 ^ 52 < b.highNum * den * (2 ^ 52 - 1)

/-- What is to be checked of two fractions. The lower one may be the number itself and the upper one
an exception; their denominators are small then, so that no other fraction is as close. -/
structure Settles (num den : Nat) (exceptions : List Nat) : Prop where
  neighbors : b.highNum * b.lowDen = b.lowNum * b.highDen + 1
  wide : 2 ^ 25 * den ≤ (b.lowDen + b.highDen) * num
  low : b.LowFar num den ∨ b.lowNum * den = b.lowDen * num ∧ b.lowDen < 2 ^ 26
  high : b.HighFar num den ∨ b.highDen * num ≤ b.highNum * den ∧ b.highDen < 2 ^ 26 ∧
    b.highNum ∈ exceptions ∧ 2 ^ 25 ≤ 2 * b.highNum

instance (num den : Nat) : Decidable (b.LowFar num den) := inferInstanceAs (Decidable (_ < _))

instance (num den : Nat) : Decidable (b.HighFar num den) := inferInstanceAs (Decidable (_ < _))

instance (num den : Nat) (exceptions : List Nat) : Decidable (b.Settles num den exceptions) :=
  decidable_of_iff (_ ∧ _ ∧ _ ∧ _)
    ⟨fun ⟨neighbors, wide, low, high⟩ => ⟨neighbors, wide, low, high⟩,
      fun ⟨neighbors, wide, low, high⟩ => ⟨neighbors, wide, low, high⟩⟩

namespace Settles
variable {b} {num den m n : Nat} {exceptions : List Nat} (hden : 0 < den) (hm : m < 2 ^ 25)
include hden hm

section
variable (hhigh : n * num * (2 ^ 52 - 1) ≤ m * den * 2 ^ 52)
include hhigh

theorem denominator_lt (h : b.Settles num den exceptions) : n < b.lowDen + b.highDen := by
  have hwide := h.wide
  have hle : m * den ≤ (2 ^ 25 - 1) * den := Nat.mul_le_mul_right den (by omega)
  have hlt : n * num < (b.lowDen + b.highDen) * num := by omega
  exact lt_of_mul_lt_mul_right hlt (Nat.zero_le num)

theorem eq_of_low (h : b.Settles num den exceptions) (hn : 0 < n)
    (hlow : m * b.lowDen ≤ b.lowNum * n) : n * num = m * den := by
  have hb : 0 < b.lowDen := by
    have hneighbors := h.neighbors
    by_contra hzero
    rw [show b.lowDen = 0 by omega, Nat.mul_zero] at hneighbors
    omega
  have hscaled : n * (b.lowDen * num) * (2 ^ 52 - 1) ≤ m * b.lowDen * den * 2 ^ 52 := by
    have := Nat.mul_le_mul_left b.lowDen hhigh
    linarith
  rcases h.low with hfar | ⟨hexact, hsmall⟩
  · rw [LowFar] at hfar
    have hlow' := Nat.mul_le_mul_right den hlow
    have hfar' := Nat.mul_lt_mul_of_pos_left hfar hn
    linarith
  · -- a multiple of the number that is another fraction is far away, as the denominator is small
    have hle : b.lowNum * n ≤ m * b.lowDen := by
      rw [← hexact] at hscaled
      have hdivided : n * b.lowNum * (2 ^ 52 - 1) ≤ m * b.lowDen * 2 ^ 52 :=
        le_of_mul_le_mul_right (by linarith) hden
      have hproduct : m * b.lowDen ≤ 2 ^ 25 * 2 ^ 26 := Nat.mul_le_mul hm.le hsmall.le
      rw [Nat.mul_comm n] at hdivided
      omega
    refine Nat.eq_of_mul_eq_mul_left hb ?_
    calc b.lowDen * (n * num) = b.lowNum * n * den := by
          rw [Nat.mul_left_comm, ← hexact]; ring
      _ = b.lowDen * (m * den) := by rw [Nat.le_antisymm hle hlow]; ring

end

theorem mem_of_high (h : b.Settles num den exceptions) (hn : 0 < n) (hm0 : 0 < m)
    (hlow : m * den * (2 ^ 52 - 1) ≤ n * num * 2 ^ 52)
    (hhigh : b.highNum * n ≤ m * b.highDen) : m ∈ exceptions := by
  have hscaled : m * b.highDen * den * (2 ^ 52 - 1) ≤ n * (b.highDen * num) * 2 ^ 52 := by
    have := Nat.mul_le_mul_left b.highDen hlow
    linarith
  rcases h.high with hfar | ⟨habove, hsmall, hmem, hlarge⟩
  · rw [HighFar] at hfar
    have hhigh' := Nat.mul_le_mul_right (den * (2 ^ 52 - 1)) hhigh
    have hfar' := Nat.mul_lt_mul_of_pos_left hfar hn
    linarith
  · have hle : m * b.highDen ≤ b.highNum * n := by
      have habove' := Nat.mul_le_mul_left n habove
      have hdivided : m * b.highDen * (2 ^ 52 - 1) ≤ n * b.highNum * 2 ^ 52 :=
        le_of_mul_le_mul_right (by linarith) hden
      have hproduct : m * b.highDen ≤ 2 ^ 25 * 2 ^ 26 := Nat.mul_le_mul hm.le hsmall.le
      rw [Nat.mul_comm n] at hdivided
      omega
    -- so the fractions are the same, and the upper neighbor is in lowest terms
    have hcoprime : Nat.Coprime b.highNum b.highDen := by
      have hdvd : b.highNum.gcd b.highDen ∣ 1 :=
        (Nat.dvd_add_right ((Nat.gcd_dvd_right _ _).mul_left b.lowNum)).1
          (h.neighbors ▸ (Nat.gcd_dvd_left _ _).mul_right b.lowDen)
      exact Nat.dvd_one.1 hdvd
    obtain ⟨t, rfl⟩ : b.highNum ∣ m :=
      hcoprime.dvd_of_dvd_mul_right (Nat.le_antisymm hle hhigh ▸ Nat.dvd_mul_right _ _)
    have ht : t = 1 := by
      rcases t with _ | _ | t
      · exact absurd hm0 (by simp)
      · rfl
      · have : b.highNum * 2 ≤ b.highNum * (t + 1 + 1) := Nat.mul_le_mul_left _ (by omega)
        omega
    rwa [ht, Nat.mul_one]

/-- **A multiple of the number that is close to a small whole number is equal to it**, but for the
exceptions. -/
theorem eq_or_mem (h : b.Settles num den exceptions) (hm0 : 0 < m)
    (hlow : m * den * (2 ^ 52 - 1) ≤ n * num * 2 ^ 52)
    (hhigh : n * num * (2 ^ 52 - 1) ≤ m * den * 2 ^ 52) :
    n * num = m * den ∨ m ∈ exceptions := by
  have hn : 0 < n := by
    by_contra hzero
    obtain rfl : n = 0 := by omega
    have : 0 < m * den := Nat.mul_pos hm0 hden
    omega
  rcases b.le_or_le h.neighbors (denominator_lt hden hm hhigh h) with hle | hle
  · exact .inl (eq_of_low hden hm hhigh h hn hle)
  · exact .inr (mem_of_high hden hm h hn hm0 hlow hle)

end Settles

end Bracket

/-! ### All exponents of single precision -/

/-- The exponent of the finest grid that is looked at around a midpoint with this exponent. -/
def finest (e : Int) : Int := (30103 * e - 17609) / 100000 + 1

/-- One step of that grid in halves of a last bit, as the quotient `stepNum / stepDen`. -/
def stepNum (e : Int) : Nat := 10 ^ (finest e).toNat * 2 ^ (1 - e).toNat

def stepDen (e : Int) : Nat := 10 ^ (-finest e).toNat * 2 ^ (e - 1).toNat

theorem stepDen_pos (e : Int) : 0 < stepDen e := Nat.mul_pos (by positivity) (by positivity)

theorem step_eq (e : Int) : (stepNum e : ℚ) * 2 ^ (e - 1) = stepDen e * 10 ^ finest e := by
  rw [zpow_eq_div two_ne_zero, zpow_eq_div (by norm_num) (finest e), stepNum, stepDen, neg_sub]
  push_cast
  field_simp

/-- Halves of a last bit that some decimal comes close to without reaching them. -/
def exceptions (e : Int) : List Nat := if e = -107 ∨ e = -106 then [22841339] else []

def bracket (e : Int) : Bracket :=
  let whole := stepNum e / stepDen e
  .search (stepNum e) (stepDen e) (2 ^ 25 * stepDen e / stepNum e) 40 ⟨whole, 1, whole + 1, 1⟩

theorem settles_bracket : ∀ j < 254, (bracket (-149 + (j : Nat))).Settles
    (stepNum (-149 + (j : Nat))) (stepDen (-149 + (j : Nat))) (exceptions (-149 + (j : Nat))) := by
  decide +kernel

theorem finest_spec : ∀ j < 254,
    3 * (10 : ℚ) ^ (finest (-149 + (j : Nat)) - 1) < 2 * 2 ^ (-149 + (j : Nat) : Int) := by
  decide +kernel

/-! ### Decimals next to a midpoint -/

/-- The magnitudes below the midpoints that some decimal comes close to without reaching them. -/
def nearMisses : List Nat := [42 * 2 ^ 23 + 11420669, 43 * 2 ^ 23 + 11420669]

theorem mul_le_of_close {x y : Nat} (h : (x : ℚ) * (1 - (2 : Nat) / 2 ^ 53) ≤ y) :
    x * (2 ^ 52 - 1) ≤ y * 2 ^ 52 := by
  have hcast : ((x * (2 ^ 52 - 1) : Nat) : ℚ) ≤ (y * 2 ^ 52 : Nat) := by
    push_cast at h ⊢
    linarith
  exact_mod_cast hcast

/-- A multiple of the finest step that is close to a number of halves of a last bit. -/
theorem eq_or_mem_of_close {e : Int}
    (hsettles : (bracket e).Settles (stepNum e) (stepDen e) (exceptions e)) {m c : Nat}
    (hm0 : 0 < m) (hm : m < 2 ^ 25) (hclose : Close 2 (m * 2 ^ (e - 1)) (c * 10 ^ finest e)) :
    (c * 10 ^ finest e : ℚ) = m * 2 ^ (e - 1) ∨ m ∈ exceptions e := by
  have hden := stepDen_pos e
  have hden' : (0 : ℚ) < stepDen e := by exact_mod_cast hden
  have hhalf : (0 : ℚ) < 2 ^ (e - 1) := zpow_pos two_pos _
  have hstep := step_eq e
  have hscaled : Close 2 (m * stepDen e : Nat) (c * stepNum e : Nat) := by
    have h := hclose.mul_right (z := stepDen e / 2 ^ (e - 1)) (by positivity)
    have hleft : (m * 2 ^ (e - 1) : ℚ) * (stepDen e / 2 ^ (e - 1)) = (m * stepDen e : Nat) := by
      push_cast
      field_simp
    have hright : (c * 10 ^ finest e : ℚ) * (stepDen e / 2 ^ (e - 1)) = (c * stepNum e : Nat) := by
      rw [mul_assoc, ← mul_div_assoc, mul_comm _ (stepDen e : ℚ), ← hstep,
        mul_div_cancel_right₀ _ hhalf.ne', Nat.cast_mul]
    rwa [hleft, hright] at h
  refine (hsettles.eq_or_mem hden hm hm0 (mul_le_of_close hscaled.left)
    (mul_le_of_close hscaled.right)).imp_left fun heq => ?_
  have heq' : (c : ℚ) * stepNum e = m * stepDen e := by exact_mod_cast heq
  refine mul_right_cancel₀ hden'.ne' ?_
  rw [mul_assoc, mul_comm _ (stepDen e : ℚ), ← hstep, ← mul_assoc, heq']
  ring

/-- **A decimal on a grid that is not too fine**, where it is as near to a midpoint as the error of
two roundings, is that midpoint, but for the near misses. -/
theorem eq_midpoint_or_mem {j : Nat} (hj : j < single.infinity) {n : Nat} {place : Int}
    (hplace : 2 * 2 ^ single.exponent j ≤ 3 * (10 : ℚ) ^ place)
    (hclose : Close 2 (single.midpoint j) (n * 10 ^ place)) :
    n * 10 ^ place = single.midpoint j ∨ j ∈ nearMisses := by
  obtain ⟨i, m, rfl, hi, hm⟩ := single.exists_canonical j
  have hi' : i < 254 := by
    have hinfinity : single.infinity =
        254 * 2 ^ single.fractionBits + 2 ^ single.fractionBits := rfl
    by_contra hge
    have hle : 254 * 2 ^ single.fractionBits ≤ i * 2 ^ single.fractionBits :=
      Nat.mul_le_mul_right _ (by omega)
    omega
  have hexponent : single.exponent (i * 2 ^ single.fractionBits + m) = -149 + (i : Int) :=
    Format.exponent_canonical hi hm
  have hmid : single.midpoint (i * 2 ^ single.fractionBits + m) =
      (2 * m + 1 : Nat) * 2 ^ (-149 + i - 1 : Int) := Format.midpoint_canonical hi hm
  rw [hexponent] at hplace
  rw [hmid] at hclose ⊢
  have hfinest := finest_spec i hi'
  have hsettles := settles_bracket i hi'
  generalize he : -149 + (i : Int) = e at *
  -- the grid is made of steps of the finest one
  obtain ⟨s, hs⟩ : ∃ s : Nat, place = finest e + s := by
    refine ⟨(place - finest e).toNat, ?_⟩
    have hlt := (zpow_lt_zpow_iff_right₀ (by norm_num : (1 : ℚ) < 10)).1
      (lt_of_mul_lt_mul_left (hfinest.trans_le hplace) (by norm_num))
    omega
  have hten : (n : ℚ) * 10 ^ place = (n * 10 ^ s : Nat) * 10 ^ finest e := by
    rw [hs, zpow_add₀ (by norm_num), zpow_natCast]
    push_cast
    ring
  rw [hten] at hclose ⊢
  have hm' : 2 * m + 1 < 2 ^ 25 := by
    have : 2 * 2 ^ single.fractionBits = 2 ^ 24 := rfl
    omega
  refine (eq_or_mem_of_close hsettles (Nat.succ_pos _) hm' hclose).imp_right fun hmem => ?_
  rw [exceptions] at hmem
  split at hmem
  · rename_i hexception
    obtain rfl : m = 11420669 := by
      rw [List.mem_singleton] at hmem
      omega
    have hcases : i = 42 ∨ i = 43 := by omega
    rcases hcases with rfl | rfl <;> decide
  · cases hmem

end NeighborSearch.Decimal
