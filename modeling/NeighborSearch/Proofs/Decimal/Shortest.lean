import NeighborSearch.Decimal.Shortest
import NeighborSearch.Proofs.Binary.Nearest
import NeighborSearch.Proofs.Decimal.Digits

/-! The shortest decimal of a value.

The interval around a value is what rounds to it (`contains_iff_rounds`), so what `shortest` finds
rounds back to the value it was made from. It is found on a grid no finer than it has to be: if
the grid before it has no point in the interval, its step is at least half a unit of the last bit
(`le_pow_of_nearest?_eq_none`), so seventeen grids are enough and the coefficient stays small
(`shortest_spec`). A decimal that lies far away from the value, at the other end of its side of the
interval, does so because the grid is coarse (`Near`). -/
namespace NeighborSearch.Decimal
open Binary

/-- The number that a decimal stands for. -/
def value (d : Decimal) : ℚ := d.coefficient * 10 ^ d.exponent

theorem ten_zpow_pos (e : Int) : (0 : ℚ) < 10 ^ e := zpow_pos (by norm_num) e

/-! ### The size of a number -/

theorem leadingExponent_spec {num den : Nat} (hnum : 0 < num) (hden : 0 < den) :
    (10 : ℚ) ^ leadingExponent num den ≤ num / den ∧
      (num : ℚ) / den < 10 ^ (leadingExponent num den + 1) := by
  have hnum' : (0 : ℚ) < num := by exact_mod_cast hnum
  have hden' : (0 : ℚ) < den := by exact_mod_cast hden
  rw [leadingExponent]
  by_cases hle : den ≤ num
  · have hq : 0 < num / den := Nat.div_pos hle hden
    have hlength := length_toDigits_pos (num / den)
    rw [if_pos hle]
    constructor
    · rw [zpow_natCast, le_div_iff₀ hden']
      have h := (Nat.mul_le_mul_right den (pow_length_le hq)).trans (Nat.div_mul_le_self num den)
      exact_mod_cast h
    · rw [show (((toDigits (num / den)).length - 1 : Nat) : Int) + 1 =
        ((toDigits (num / den)).length : Int) by omega, zpow_natCast, div_lt_iff₀ hden']
      have h := (Nat.div_lt_iff_lt_mul hden).1 (lt_pow_length (num / den))
      exact_mod_cast h
  · have hq : 0 < den / num := Nat.div_pos (by omega) hnum
    have hlength := length_toDigits_pos (den / num)
    rw [if_neg hle]
    dsimp only
    generalize hp : (toDigits (den / num)).length = places at *
    obtain ⟨p, rfl⟩ : ∃ p, places = p + 1 := ⟨places - 1, by omega⟩
    have hlow : num * 10 ^ p ≤ den := by
      have h := Nat.mul_le_mul_right num (pow_length_le hq)
      rw [hp, Nat.add_sub_cancel, Nat.mul_comm] at h
      exact h.trans (Nat.div_mul_le_self den num)
    have hhigh : den < num * 10 ^ (p + 1) := by
      have h := (Nat.div_lt_iff_lt_mul hnum).1 (lt_pow_length (den / num))
      rwa [hp, Nat.mul_comm] at h
    have hstep : ∀ e : Nat, (10 : ℚ) ^ (-(e : Int)) ≤ num / den ↔ den ≤ num * 10 ^ e := by
      intro e
      rw [zpow_neg, zpow_natCast, inv_eq_one_div, div_le_div_iff₀ (by positivity) hden', one_mul]
      exact_mod_cast Iff.rfl
    have hstep' : ∀ e : Nat, (num : ℚ) / den < 10 ^ (-(e : Int)) ↔ num * 10 ^ e < den := by
      intro e
      rw [← not_le, hstep, not_le]
    rw [show Nat.pow 10 (p + 1 - 1) = 10 ^ p by rw [Nat.add_sub_cancel]; rfl]
    split
    · rename_i h
      rw [Nat.add_sub_cancel]
      refine ⟨(hstep p).2 h, ?_⟩
      have hle : (num : ℚ) / den ≤ 10 ^ (-(p : Int)) := by
        rw [zpow_neg, zpow_natCast, inv_eq_one_div, div_le_div_iff₀ hden' (by positivity), one_mul]
        exact_mod_cast hlow
      exact hle.trans_lt (zpow_lt_zpow_right₀ (by norm_num) (by omega))
    · rename_i h
      refine ⟨(hstep (p + 1)).2 hhigh.le, ?_⟩
      rw [show -((p + 1 : Nat) : Int) + 1 = -(p : Int) by push_cast; ring]
      exact (hstep' p).2 (not_le.1 h)

/-! ### Grids -/

theorem roundDiv_toEven_cases (num den : Nat) :
    roundDiv .toEven num den = num / den ∨ roundDiv .toEven num den = num / den + 1 := by
  rw [roundDiv]
  split
  · exact .inl rfl
  · split
    · exact .inr rfl
    · rw [Tie.settle]
      omega

namespace Interval
variable (i : Interval) (hnum : 0 < i.num) (hden : 0 < i.den) (place : Int) {n : Nat}

/-- A quarter of the last bit. -/
def quarter : ℚ := i.num / i.den

section
include hden

theorem step_pos : 0 < i.step place := Nat.mul_pos hden (Nat.pow_pos (by decide))

/-- Both sizes are brought to whole numbers by one factor. -/
theorem cast_unit : (i.unit place : ℚ) = i.quarter * (i.den * 10 ^ (-place).toNat) := by
  have hden' : (i.den : ℚ) ≠ 0 := by exact_mod_cast hden.ne'
  show ((i.num * 10 ^ (-place).toNat : Nat) : ℚ) = _
  rw [quarter, ← mul_assoc, div_mul_cancel₀ _ hden']
  push_cast
  rfl

omit hden in
theorem cast_step : (i.step place : ℚ) = 10 ^ place * (i.den * 10 ^ (-place).toNat) := by
  show ((i.den * 10 ^ place.toNat : Nat) : ℚ) = _
  rw [zpow_eq_div (by norm_num) place]
  push_cast
  field_simp

theorem factor_pos : (0 : ℚ) < i.den * 10 ^ (-place).toNat := by
  have hden' : (0 : ℚ) < i.den := by exact_mod_cast hden
  positivity

theorem mul_unit_le_mul_step (a n : Nat) :
    a * i.unit place ≤ n * i.step place ↔ a * i.quarter ≤ n * 10 ^ place := by
  rw [← Nat.cast_le (α := ℚ), Nat.cast_mul, Nat.cast_mul, i.cast_unit hden, i.cast_step,
    ← mul_assoc (a : ℚ), ← mul_assoc (n : ℚ), mul_le_mul_iff_left₀ (i.factor_pos hden place)]

theorem mul_step_le_mul_unit (a n : Nat) :
    n * i.step place ≤ a * i.unit place ↔ n * 10 ^ place ≤ a * i.quarter := by
  rw [← Nat.cast_le (α := ℚ), Nat.cast_mul, Nat.cast_mul, i.cast_unit hden, i.cast_step,
    ← mul_assoc (a : ℚ), ← mul_assoc (n : ℚ), mul_le_mul_iff_left₀ (i.factor_pos hden place)]

theorem contains_iff : i.contains place n = true ↔
    if i.closed then i.low * i.quarter ≤ n * 10 ^ place ∧ n * 10 ^ place ≤ i.high * i.quarter
    else i.low * i.quarter < n * 10 ^ place ∧ n * 10 ^ place < i.high * i.quarter := by
  have hlow := i.mul_unit_le_mul_step hden place i.low n
  have hlow' := i.mul_step_le_mul_unit hden place i.low n
  have hhigh := i.mul_step_le_mul_unit hden place i.high n
  have hhigh' := i.mul_unit_le_mul_step hden place i.high n
  rw [contains]
  cases i.closed with
  | true => simp [hlow, hhigh]
  | false =>
    simp only [Bool.false_eq_true, if_false, Bool.and_eq_true, decide_eq_true_eq]
    rw [← not_le, hlow', not_le, ← not_le (a := i.high * i.unit place), hhigh', not_le]

theorem floor_mul_le : i.floor place * 10 ^ place ≤ i.value * i.quarter :=
  (i.mul_step_le_mul_unit hden place _ _).1 (Nat.div_mul_le_self _ _)

theorem lt_floor_add_one_mul :
    i.value * i.quarter < ((i.floor place + 1 : Nat) : ℚ) * 10 ^ place := by
  rw [← not_le, ← mul_step_le_mul_unit i hden, not_le]
  exact Nat.lt_mul_of_div_lt (Nat.lt_succ_self _) (i.step_pos hden place)

/-! ### The nearest point of a grid -/

/-- A point that lies below the value and far away from the upper end, or the other way round,
stands for a coarse grid. -/
def Near (i : Interval) (place : Int) (n : Nat) : Prop :=
  ((n : ℚ) * 10 ^ place ≤ i.value * i.quarter →
      i.high * i.quarter - n * 10 ^ place ≤ 10 ^ place ∨
        2 * (i.value * i.quarter - n * 10 ^ place) ≤ 10 ^ place) ∧
    (i.value * i.quarter < n * 10 ^ place →
      n * 10 ^ place - i.low * i.quarter ≤ 10 ^ place ∨
        2 * (n * 10 ^ place - i.value * i.quarter) ≤ 10 ^ place)

include hden

/-- A point that is not in the interval lies on one side of it. -/
theorem le_of_not_contains (h : i.contains place n = false) :
    (i.low * i.quarter < n * 10 ^ place → i.high * i.quarter ≤ n * 10 ^ place) ∧
      (n * 10 ^ place < i.high * i.quarter → n * 10 ^ place ≤ i.low * i.quarter) := by
  have hnot := mt (i.contains_iff hden place).2 (by rw [h]; exact Bool.false_ne_true)
  split at hnot
  · exact ⟨fun hlt => (not_le.1 fun hle => hnot ⟨hlt.le, hle⟩).le,
      fun hlt => (not_le.1 fun hle => hnot ⟨hle, hlt.le⟩).le⟩
  · exact ⟨fun hlt => not_lt.1 fun hlt' => hnot ⟨hlt, hlt'⟩,
      fun hlt' => not_lt.1 fun hlt => hnot ⟨hlt, hlt'⟩⟩

variable (hlow : i.low * i.quarter < i.value * i.quarter)
include hlow

theorem nearest?_spec (hhigh : i.value * i.quarter < i.high * i.quarter)
    (h : i.nearest? place = some n) : i.contains place n = true ∧ i.Near place n := by
  have hpow := ten_zpow_pos place
  have hfloor := i.floor_mul_le hden place
  have hnext := i.lt_floor_add_one_mul hden place
  have hstep : ((i.floor place + 1 : Nat) : ℚ) * 10 ^ place =
      i.floor place * 10 ^ place + 10 ^ place := by
    push_cast
    ring
  rw [nearest?] at h
  cases hc : i.contains place (i.floor place) <;> cases hc' : i.contains place (i.floor place + 1)
    <;> rw [hc, hc'] at h
  · cases h
  · cases h
    have hbelow := (i.le_of_not_contains hden place hc).2 (by linarith)
    exact ⟨hc', fun hle => absurd hle (not_le.2 hnext), fun _ => .inl (by linarith)⟩
  · cases h
    have habove := (i.le_of_not_contains hden place hc').1 (by linarith)
    exact ⟨hc, fun _ => .inl (by linarith), fun hlt => absurd hlt (not_lt.2 hfloor)⟩
  · cases h
    have hround := isRound_roundDiv (i.value * i.unit place) (i.step_pos hden place)
    have hscaled : ((i.value * i.unit place : Nat) : ℚ) / i.step place =
        i.value * i.quarter / 10 ^ place := by
      have hfactor := i.factor_pos hden place
      rw [Nat.cast_mul, i.cast_unit hden, i.cast_step, ← mul_assoc,
        mul_div_mul_right _ _ hfactor.ne']
    rw [hscaled] at hround
    have hdistance : i.value * i.quarter - 10 ^ place / 2 ≤
        (roundDiv .toEven (i.value * i.unit place) (i.step place) : ℚ) * 10 ^ place ∧
        (roundDiv .toEven (i.value * i.unit place) (i.step place) : ℚ) * 10 ^ place ≤
          i.value * i.quarter + 10 ^ place / 2 := by
      constructor
      · have hle := hround.le_add_half
        rw [div_le_iff₀ hpow] at hle
        linarith
      · have hle := hround.sub_half_le
        rw [le_div_iff₀ hpow] at hle
        linarith
    refine ⟨?_, fun _ => .inr (by linarith), fun _ => .inr (by linarith)⟩
    rcases roundDiv_toEven_cases (i.value * i.unit place) (i.step place) with h | h <;> rw [h]
    · exact hc
    · exact hc'

/-- On a fine grid one of the two points next to the value is in the interval. -/
theorem le_pow_of_nearest?_eq_none (h : i.nearest? place = none) :
    i.high * i.quarter - i.value * i.quarter ≤ 10 ^ place := by
  have hfloor := i.floor_mul_le hden place
  have hnext := i.lt_floor_add_one_mul hden place
  rw [nearest?] at h
  cases hc : i.contains place (i.floor place) <;> cases hc' : i.contains place (i.floor place + 1)
    <;> rw [hc, hc'] at h
  · have habove := (i.le_of_not_contains hden place hc').1 (by linarith)
    push_cast at habove
    linarith
  all_goals cases h

end

/-! ### The interval of a value -/

variable {f : Format} {k : Nat}

theorem den_around_pos (f : Format) (k : Nat) : 0 < (around f k).den := Nat.two_pow_pos _

theorem quarter_around (f : Format) (k : Nat) :
    (around f k).quarter = 2 ^ f.exponent k / 4 := by
  have hquarter : (around f k).quarter = 2 ^ (f.exponent k - 2) := by
    rw [zpow_eq_div two_ne_zero, quarter]
    show ((2 ^ (f.exponent k - 2).toNat : Nat) : ℚ) / (2 ^ (-(f.exponent k - 2)).toNat : Nat) = _
    push_cast
    rfl
  rw [hquarter, zpow_sub₀ two_ne_zero]
  norm_num

theorem value_around (f : Format) (k : Nat) :
    (around f k).value * (around f k).quarter = f.value k := by
  rw [quarter_around, Format.value]
  show ((4 * f.significand k : Nat) : ℚ) * _ = _
  push_cast
  ring

theorem high_around (f : Format) (k : Nat) :
    (around f k).high * (around f k).quarter = f.midpoint k := by
  rw [quarter_around, Format.midpoint, Format.value]
  show ((4 * f.significand k + 2 : Nat) : ℚ) * _ = _
  push_cast
  ring

/-- Below a power of two the midpoint is nearer, but for the least exponent. -/
theorem low_around (f : Format) (k : Nat) :
    (around f (k + 1)).low * (around f (k + 1)).quarter = f.midpoint k := by
  obtain ⟨j, m, rfl, hj, hm⟩ := f.exists_canonical k
  have hmid : f.midpoint (j * 2 ^ f.fractionBits + m) =
      (m + 1 / 2) * 2 ^ (f.leastExponent + j) := by
    rw [Format.midpoint_canonical hj hm, zpow_sub_one₀ two_ne_zero]
    push_cast
    ring
  have hj' : j = 0 ∨ 2 ^ f.fractionBits ≤ m + 1 := by omega
  rw [quarter_around, hmid, Nat.add_assoc]
  rcases Nat.lt_or_eq_of_le (Nat.succ_le_of_lt hm) with hlt | heq
  · have hlow : (around f (j * 2 ^ f.fractionBits + (m + 1))).low = 4 * (m + 1) - 2 := by
      show 4 * f.significand _ - _ = _
      rw [Format.significand_canonical hj' hlt, if_neg]
      rintro ⟨hpower, hexponent⟩
      rw [Format.exponent_canonical hj' hlt] at hexponent
      rw [show Nat.pow 2 f.fractionBits = 2 ^ f.fractionBits from rfl] at hpower
      omega
    rw [hlow, Format.exponent_canonical hj' hlt, show 4 * (m + 1) - 2 = 4 * m + 2 by omega]
    push_cast
    ring
  · have hnext : j * 2 ^ f.fractionBits + (m + 1) =
        (j + 1) * 2 ^ f.fractionBits + 2 ^ f.fractionBits := by
      rw [Nat.succ_mul j]
      omega
    have hpos := Nat.two_pow_pos f.fractionBits
    have hlow : (around f (j * 2 ^ f.fractionBits + (m + 1))).low = 2 * (m + 1) - 1 := by
      show 4 * f.significand _ - _ = _
      rw [hnext, Format.significand_canonical (.inr le_rfl) (by omega),
        Format.exponent_canonical (.inr le_rfl) (by omega), if_pos ⟨rfl, by omega⟩]
      omega
    rw [hlow, hnext, Format.exponent_canonical (.inr le_rfl) (by omega),
      show 2 * (m + 1) - 1 = 2 * m + 1 by omega]
    push_cast
    rw [← add_assoc, zpow_add_one₀ two_ne_zero]
    ring

theorem closed_around (hf : 0 < f.fractionBits) (k : Nat) :
    (around f k).closed = true ↔ k % 2 = 0 := by
  obtain ⟨j, m, rfl, hj, hm⟩ := f.exists_canonical k
  obtain ⟨p, hp⟩ : ∃ p, f.fractionBits = p + 1 := ⟨f.fractionBits - 1, by omega⟩
  show decide (f.significand _ % 2 = 0) = true ↔ _
  rw [decide_eq_true_eq, Format.significand_canonical hj hm, hp, pow_succ, ← Nat.mul_assoc]
  omega

/-- The interval holds what rounds to the value. -/
theorem contains_iff_rounds (hf : 0 < f.fractionBits) (k n : Nat) (place : Int) :
    (around f (k + 1)).contains place n = true ↔ f.Rounds (n * 10 ^ place) (k + 1) := by
  rw [contains_iff _ (den_around_pos f _), low_around, high_around]
  constructor
  · intro h
    refine Format.Rounds.of_neighbor (fun j hj => ?_) ?_
    · obtain rfl : k = j := by omega
      split at h
      · rename_i hclosed
        exact h.1.lt_or_eq.imp_right fun heq => ⟨heq, (closed_around hf _).1 hclosed⟩
      · exact .inl h.1
    · split at h
      · rename_i hclosed
        exact h.2.lt_or_eq.imp_right fun heq => ⟨heq, (closed_around hf _).1 hclosed⟩
      · exact .inl h.2
  · intro h
    split
    · exact ⟨h.midpoint_le (Nat.lt_succ_self k), h.le_midpoint⟩
    · rename_i hclosed
      rw [closed_around hf] at hclosed
      exact ⟨(h.above k (Nat.lt_succ_self k)).resolve_right fun h => hclosed h.2,
        h.below.resolve_right fun h => hclosed h.2⟩

theorem low_lt_value (f : Format) (k : Nat) :
    (around f (k + 1)).low * (around f (k + 1)).quarter <
      (around f (k + 1)).value * (around f (k + 1)).quarter := by
  rw [low_around, value_around]
  exact f.midpoint_lt_value (Nat.lt_succ_self k)

theorem value_lt_high (f : Format) (k : Nat) :
    (around f k).value * (around f k).quarter < (around f k).high * (around f k).quarter := by
  rw [high_around, value_around]
  exact f.value_lt_midpoint k

/-- The grid that the search begins with. -/
def coarsest (f : Format) (k : Nat) : Int :=
  leadingExponent ((around f k).value * (around f k).num) (around f k).den

theorem coarsest_spec (f : Format) (hk : 0 < k) :
    (10 : ℚ) ^ coarsest f k ≤ f.value k ∧ f.value k < 10 ^ (coarsest f k + 1) := by
  have hnum : 0 < (around f k).value * (around f k).num :=
    Nat.mul_pos (Nat.mul_pos (by decide) (Format.significand_pos hk.ne')) (Nat.two_pow_pos _)
  have hquotient : (((around f k).value * (around f k).num : Nat) : ℚ) / (around f k).den =
      f.value k := by
    rw [← value_around, quarter, ← mul_div_assoc]
    push_cast
    rfl
  have h := leadingExponent_spec hnum (den_around_pos f k)
  rwa [hquotient] at h

/-! ### Finer and finer grids -/

/-- The search ends on the first grid with a point in the interval, or all grids are without. -/
theorem search_spec (i : Interval) (grids : Nat) (place : Int) :
    (∃ s : Nat, i.nearest? (place - s) = some (i.search grids place).coefficient ∧
      (i.search grids place).exponent = place - s ∧
        ∀ t : Nat, s = t + 1 → i.nearest? (place - t) = none) ∨
      ∀ t < grids, i.nearest? (place - t) = none := by
  induction grids generalizing place with
  | zero => exact .inr fun t ht => absurd ht (Nat.not_lt_zero t)
  | succ grids ih =>
    cases h : i.nearest? place with
    | some n =>
      left
      refine ⟨0, ?_, ?_, fun t ht => absurd ht (Nat.succ_ne_zero t).symm⟩
      · rw [search, h, Nat.cast_zero, sub_zero, h]
      · rw [search, h, Nat.cast_zero, sub_zero]
    | none =>
      have hshift : ∀ t : Nat, place - 1 - (t : Int) = place - (t + 1 : Nat) := by
        intro t
        push_cast
        ring
      rw [search, h]
      rcases ih (place - 1) with ⟨s, hs, hexponent, hbefore⟩ | hnone
      · left
        rw [hshift] at hs hexponent
        refine ⟨s + 1, hs, hexponent, fun t ht => ?_⟩
        obtain rfl : s = t := by omega
        cases s with
        | zero => rwa [Nat.cast_zero, sub_zero]
        | succ t =>
          rw [← hshift]
          exact hbefore t rfl
      · right
        intro t ht
        cases t with
        | zero => rwa [Nat.cast_zero, sub_zero]
        | succ t =>
          rw [← hshift]
          exact hnone t (by omega)

end Interval

/-! ### The decimal that is found -/

theorem trim_spec (d : Decimal) : value (trim d) = value d ∧
    (trim d).coefficient ≤ d.coefficient ∧ (0 < d.coefficient → 0 < (trim d).coefficient) := by
  fun_induction trim d with
  | case1 d h ih =>
    obtain ⟨hvalue, hle, hpos⟩ := ih
    have hten : d.coefficient = d.coefficient / 10 * 10 := by omega
    refine ⟨hvalue.trans ?_, hle.trans (Nat.div_le_self _ _), fun _ => hpos ?_⟩
    · rw [value, value, zpow_add_one₀ (by norm_num), hten, Nat.mul_div_cancel _ (by decide)]
      push_cast
      ring
    · show 0 < d.coefficient / 10
      omega
  | case2 d h => exact ⟨rfl, le_rfl, id⟩

namespace Interval
variable {f : Format} (hbits : 4 * 2 ^ f.fractionBits ≤ 10 ^ 16) (k : Nat)
include hbits

/-- Seventeen grids are enough, and the last one of them is not much finer than it has to be. -/
theorem search_around : ∃ place,
    (around f (k + 1)).nearest? place =
        some ((around f (k + 1)).search 17 (coarsest f (k + 1))).coefficient ∧
      ((around f (k + 1)).search 17 (coarsest f (k + 1))).exponent = place ∧
      (2 : ℚ) ^ f.exponent (k + 1) ≤ 20 * 10 ^ place := by
  have hunit := f.unit_pos (k + 1)
  have hle := f.unit_le_value (Nat.succ_pos k)
  obtain ⟨hlead, hlead'⟩ := coarsest_spec f (Nat.succ_pos k)
  -- a grid without a point in the interval has steps of half a unit at least
  have hnone : ∀ place, (around f (k + 1)).nearest? place = none →
      (2 : ℚ) ^ f.exponent (k + 1) ≤ 2 * 10 ^ place := by
    intro place h
    have hstep := le_pow_of_nearest?_eq_none _ (den_around_pos f _) place (low_lt_value f k) h
    rw [high_around, value_around, Format.midpoint] at hstep
    linarith
  rcases search_spec (around f (k + 1)) 17 (coarsest f (k + 1)) with
    ⟨s, hs, hexponent, hbefore⟩ | hall
  · refine ⟨_, hs, hexponent, ?_⟩
    cases s with
    | zero =>
      rw [zpow_add_one₀ (by norm_num)] at hlead'
      rw [Nat.cast_zero, sub_zero]
      linarith
    | succ t =>
      have h := hnone _ (hbefore t rfl)
      rw [show coarsest f (k + 1) - (t : Int) = coarsest f (k + 1) - (t + 1 : Nat) + 1 by
        push_cast; ring, zpow_add_one₀ (by norm_num)] at h
      linarith
  · have h := hnone _ (hall 16 (by decide))
    have hlast : (10 : ℚ) ^ coarsest f (k + 1) =
        10 ^ 16 * 10 ^ (coarsest f (k + 1) - (16 : Nat)) := by
      rw [← zpow_natCast, ← zpow_add₀ (by norm_num)]
      congr 1
      ring
    have hlt := f.value_lt_units (k + 1)
    have hbits' : (4 : ℚ) * 2 ^ f.fractionBits ≤ 10 ^ 16 := by exact_mod_cast hbits
    have hmul := mul_le_mul hbits' h hunit.le (by norm_num)
    rw [hlast] at hlead
    linarith

end Interval

/-- **What `shortest` finds rounds back to the value**, its coefficient has few more bits than a
significand, and it is the nearest point of a grid. -/
theorem shortest_spec {f : Format} (hf : 0 < f.fractionBits)
    (hbits : 4 * 2 ^ f.fractionBits ≤ 10 ^ 16) (k : Nat) :
    f.Rounds (value (shortest f (k + 1))) (k + 1) ∧ 0 < (shortest f (k + 1)).coefficient ∧
      (shortest f (k + 1)).coefficient < 64 * 2 ^ f.fractionBits ∧
      ∃ (n : Nat) (place : Int), value (shortest f (k + 1)) = n * 10 ^ place ∧
        n < 64 * 2 ^ f.fractionBits ∧ (Interval.around f (k + 1)).Near place n := by
  obtain ⟨place, hfound, hexponent, hunit⟩ := Interval.search_around hbits k
  have hshortest : shortest f (k + 1) =
      trim ((Interval.around f (k + 1)).search 17 (Interval.coarsest f (k + 1))) := rfl
  obtain ⟨hvalue, hle, hpos⟩ :=
    trim_spec ((Interval.around f (k + 1)).search 17 (Interval.coarsest f (k + 1)))
  rw [← hshortest] at hvalue hle hpos
  have hsearch : value ((Interval.around f (k + 1)).search 17 (Interval.coarsest f (k + 1))) =
      ((Interval.around f (k + 1)).search 17 (Interval.coarsest f (k + 1))).coefficient *
        10 ^ place := by rw [value, hexponent]
  rw [hsearch] at hvalue
  generalize ((Interval.around f (k + 1)).search 17 (Interval.coarsest f (k + 1))).coefficient = n
    at *
  obtain ⟨hcontains, hnear⟩ := Interval.nearest?_spec _ (Interval.den_around_pos f _) place
    (Interval.low_lt_value f k) (Interval.value_lt_high f _) hfound
  rw [Interval.contains_iff_rounds hf] at hcontains
  have hn : n < 64 * 2 ^ f.fractionBits := by
    have hhigh := hcontains.le_midpoint
    have hlt := f.value_lt_units (k + 1)
    have hpow := ten_zpow_pos place
    have hP : (1 : ℚ) ≤ 2 ^ f.fractionBits := one_le_pow₀ (by norm_num)
    rw [Format.midpoint] at hhigh
    have hmul : (n : ℚ) * 10 ^ place < (64 * 2 ^ f.fractionBits) * 10 ^ place :=
      calc (n : ℚ) * 10 ^ place
          < (2 * 2 ^ f.fractionBits + 1 / 2) * 2 ^ f.exponent (k + 1) := by linarith
        _ ≤ (2 * 2 ^ f.fractionBits + 1 / 2) * (20 * 10 ^ place) :=
            mul_le_mul_of_nonneg_left hunit (by positivity)
        _ = (40 * 2 ^ f.fractionBits + 10) * 10 ^ place := by ring
        _ ≤ (64 * 2 ^ f.fractionBits) * 10 ^ place :=
            mul_le_mul_of_nonneg_right (by linarith) hpow.le
    have := lt_of_mul_lt_mul_right hmul hpow.le
    exact_mod_cast this
  have hn0 : 0 < n := by
    by_contra h
    obtain rfl : n = 0 := by omega
    rw [Nat.cast_zero, zero_mul, ← f.value_zero] at hcontains
    exact absurd (hcontains.unique (f.rounds_value 0)) (Nat.succ_ne_zero k)
  exact ⟨hvalue ▸ hcontains, hpos hn0, hle.trans_lt hn, n, place, hvalue, hn, hnear⟩

end NeighborSearch.Decimal
