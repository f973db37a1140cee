import Mathlib.Data.Rat.Floor
import NeighborSearch.Proofs.Binary.DoubleOrder
import NeighborSearch.Proofs.Binary.Nearest

/-! Scaling a double and rounding it to a whole number.

A number that is multiplied or divided by a positive one keeps its sign, and its magnitude becomes
the one that the exact result rounds to; an infinity stays one (`Scales`). Rounding to the nearest
double and rounding to the nearest whole number keep the order, so both can be followed without a
look at the digits (`Scales.le_of_le`, `roundToNat_mono`). A NaN stays a NaN, which rounds to zero.
-/
namespace NeighborSearch.Binary
open Float.Model.UnpackedFloat (pack)

variable {x y x' y' : Float} {na nb : Bool} {a b a' b' limit : Nat} {c : ℚ}

/-! ### Numbers with a sign and a magnitude -/

/-- What is not a NaN has a sign and a magnitude, be it that of infinity. -/
theorem exists_number (hx : ofDouble x ≠ .nan) :
    ∃ negative k, ofDouble x = double.number negative k := by
  cases h : ofDouble x with
  | nan => exact absurd h hx
  | infinite negative => exact ⟨negative, double.infinity, by simp [Format.number]⟩
  | finite negative k =>
    exact ⟨negative, k, by rw [Format.number, if_pos (magnitude_lt_infinity h)]⟩

theorem ordinal?_number (negative : Bool) (k : Nat) :
    double.ordinal? (double.number negative k) = some (signed negative (min k double.infinity)) := by
  rw [Format.number]
  split
  · rename_i h
    rw [Nat.min_eq_left h.le]
    rfl
  · rename_i h
    rw [Nat.min_eq_right (Nat.le_of_not_lt h)]
    rfl

theorem double_le_iff_signed (hx : ofDouble x = double.number na a)
    (hy : ofDouble y = double.number nb b) :
    x ≤ y ↔ signed na (min a double.infinity) ≤ signed nb (min b double.infinity) := by
  rw [double_le_iff_place, hx, hy, ordinal?_number, ordinal?_number]
  simp

theorem ne_nan_of_le (h : x ≤ y) : ofDouble x ≠ .nan ∧ ofDouble y ≠ .nan := by
  obtain ⟨p, q, hp, hq, -⟩ := double_le_iff_place.1 h
  constructor
  · intro hx
    rw [hx] at hp
    cases hp
  · intro hy
    rw [hy] at hq
    cases hq

/-! ### Scaling -/

/-- The magnitude `b` is the one that the value of `a` scaled by `c` rounds to, or both are
infinite. -/
def ScalesTo (c : ℚ) (a b : Nat) : Prop :=
  a < double.infinity ∧ double.Rounds (double.value a * c) b ∨
    double.infinity ≤ a ∧ double.infinity ≤ b

/-- The number `y` is `x` scaled by `c` and rounded. -/
def Scales (c : ℚ) (x y : Float) : Prop :=
  ∃ negative a b, ofDouble x = double.number negative a ∧
    ofDouble y = double.number negative b ∧ ScalesTo c a b

namespace ScalesTo

theorem mono (hc : 0 ≤ c) (h : ScalesTo c a b) (h' : ScalesTo c a' b')
    (hle : min a double.infinity ≤ min a' double.infinity) :
    min b double.infinity ≤ min b' double.infinity := by
  rcases h' with ⟨ha', hb'⟩ | ⟨ha', hb'⟩
  · have ha : a < double.infinity := by omega
    rcases h with ⟨-, hb⟩ | ⟨hinfinite, -⟩
    · have hvalue : double.value a ≤ double.value a' :=
        double.value_strictMono.monotone (by omega)
      have hbb' : b ≤ b' := hb.mono hb' (mul_le_mul_of_nonneg_right hvalue hc)
      omega
    · omega
  · omega

theorem zero (h : ScalesTo c 0 b) : b = 0 := by
  rcases h with ⟨-, hb⟩ | ⟨hinfinite, -⟩
  · rw [double.value_zero, zero_mul, ← double.value_zero] at hb
    exact hb.unique (double.rounds_value 0)
  · exact absurd infinity_double_pos (Nat.not_lt.2 hinfinite)

end ScalesTo

/-- **Scaling keeps the order of two numbers.** -/
theorem Scales.le_of_le (hc : 0 ≤ c) (hx : Scales c x y) (hx' : Scales c x' y') (h : x ≤ x') :
    y ≤ y' := by
  obtain ⟨na, a, b, ha, hb, hab⟩ := hx
  obtain ⟨nb, a', b', ha', hb', hab'⟩ := hx'
  rw [double_le_iff_signed ha ha'] at h
  rw [double_le_iff_signed hb hb']
  have hup := hab.mono hc hab'
  have hdown := hab'.mono hc hab
  have hinfinity := infinity_double_pos
  simp only [signed] at h ⊢
  cases na with
  | false =>
    cases nb with
    | false => exact Int.ofNat_le.2 (hup (Int.ofNat_le.1 h))
    | true =>
      -- only zeros are at most a number with a minus sign
      simp only [Bool.false_eq_true, if_false, if_true] at h ⊢
      obtain rfl : a = 0 := by omega
      obtain rfl : a' = 0 := by omega
      rw [hab.zero, hab'.zero]
      omega
  | true =>
    simp only [if_true] at h ⊢
    cases nb with
    | false =>
      simp only [Bool.false_eq_true, if_false]
      omega
    | true =>
      simp only [if_true] at h ⊢
      have hle := hdown (by omega)
      omega

theorem scales_of (hx : ofDouble x ≠ .nan)
    (hfinite : ∀ negative a, ofDouble x = .finite negative a →
      ∃ b, double.Rounds (double.value a * c) b ∧ ofDouble y = double.number negative b)
    (hinfinite : ∀ negative, ofDouble x = .infinite negative → ofDouble y = .infinite negative) :
    Scales c x y := by
  cases h : ofDouble x with
  | nan => exact absurd h hx
  | finite negative a =>
    obtain ⟨b, hb, hy⟩ := hfinite negative a h
    have ha := magnitude_lt_infinity h
    exact ⟨negative, a, b, h.trans (if_pos ha).symm, hy, .inl ⟨ha, hb⟩⟩
  | infinite negative =>
    have hnumber : double.number negative double.infinity = .infinite negative :=
      if_neg (Nat.lt_irrefl _)
    exact ⟨negative, _, _, h.trans hnumber.symm, (hinfinite negative h).trans hnumber.symm,
      .inr ⟨Nat.le_refl _, Nat.le_refl _⟩⟩

section Operations
variable {k : Nat} {m : Float} (hm : ofDouble m = .finite false k) (hk : k ≠ 0)
include hm hk

theorem scales_mul (hx : ofDouble x ≠ .nan) : Scales (double.value k) x (x * m) := by
  refine scales_of hx (fun negative a h => ?_) fun negative h => ?_
  · have hproduct := ofDouble_mul h hm
    rwa [Bool.xor_false] at hproduct
  · rw [ofDouble_mul_eq, h, hm, Format.unpacked, Format.unpacked, dif_neg hk]
    show double.decode (pack .binary64 (.infinity (signOf negative * signOf false))).toNat = _
    rw [signOf_mul, Bool.xor_false]
    exact decode_packedInfinity (F := .binary64) negative

theorem scales_div (hx : ofDouble x ≠ .nan) : Scales (double.value k)⁻¹ x (x / m) := by
  refine scales_of hx (fun negative a h => ?_) fun negative h => ?_
  · have hquotient := ofDouble_div h hm hk
    rwa [Bool.xor_false] at hquotient
  · rw [ofDouble_div_eq, h, hm, Format.unpacked, Format.unpacked, dif_neg hk]
    show double.decode (pack .binary64 (.infinity (signOf negative / signOf false))).toNat = _
    rw [signOf_div, Bool.xor_false]
    exact decode_packedInfinity (F := .binary64) negative

theorem mul_le_mul_of_pos (h : x ≤ y) : x * m ≤ y * m :=
  (scales_mul hm hk (ne_nan_of_le h).1).le_of_le (double.value_nonneg k)
    (scales_mul hm hk (ne_nan_of_le h).2) h

theorem div_le_div_of_pos (h : x ≤ y) : x / m ≤ y / m :=
  (scales_div hm hk (ne_nan_of_le h).1).le_of_le (inv_nonneg.2 (double.value_nonneg k))
    (scales_div hm hk (ne_nan_of_le h).2) h

end Operations

theorem ofDouble_nan_mul (hx : ofDouble x = .nan) (m : Float) : ofDouble (x * m) = .nan := by
  rw [ofDouble_mul_eq, hx]
  show double.decode (pack .binary64 .notANumber).toNat = _
  decide +kernel

theorem ofDouble_nan_div (hx : ofDouble x = .nan) (m : Float) : ofDouble (x / m) = .nan := by
  rw [ofDouble_div_eq, hx]
  show double.decode (pack .binary64 .notANumber).toNat = _
  decide +kernel

/-! ### Rounding to whole numbers -/

theorem roundDiv_up (num : Nat) {den : Nat} (hden : 0 < den) :
    roundDiv .up num den = ⌊(num : ℚ) / den + 1 / 2⌋₊ := by
  have hden' : (den : ℚ) ≠ 0 := by exact_mod_cast hden.ne'
  have hsum : (num : ℚ) / den + 1 / 2 = (2 * num + den : Nat) / (2 * den : Nat) := by
    push_cast
    field_simp
  have hnum : 2 * num + den = 2 * (num % den) + den + num / den * (2 * den) := by
    have hdiv := Nat.div_add_mod' num den
    have hcomm : num / den * (2 * den) = 2 * (num / den * den) := Nat.mul_left_comm _ _ _
    omega
  have hmod := Nat.mod_lt num hden
  rw [hsum, Nat.floor_div_eq_div, hnum, Nat.add_mul_div_right _ _ (by omega)]
  simp only [roundDiv, Tie.settle, ite_self]
  split
  · have hzero : (2 * (num % den) + den) / (2 * den) = 0 := Nat.div_eq_of_lt (by omega)
    rw [hzero, Nat.zero_add]
  · have hone : (2 * (num % den) + den) / (2 * den) = 1 :=
      Nat.div_eq_of_lt_le (by omega) (by omega)
    rw [hone, Nat.add_comm]

theorem roundToNat_of_finite (hx : ofDouble x = .finite false a) :
    roundToNat limit x = min ⌊double.value a + 1 / 2⌋₊ limit := by
  rw [roundToNat, hx, double.value_eq_div, ← roundDiv_up _ (Nat.two_pow_pos _)]
  rfl

theorem roundToNat_zero (hx : ofDouble x = .finite false 0) : roundToNat limit x = 0 := by
  rw [roundToNat_of_finite hx, double.value_zero, zero_add, Nat.floor_eq_zero.2 (by norm_num),
    Nat.zero_min]

theorem roundToNat_of_nan (hx : ofDouble x = .nan) : roundToNat limit x = 0 := by
  rw [roundToNat, hx]

theorem roundToNat_of_negative (hx : ofDouble x = double.number true a) :
    roundToNat limit x = 0 := by
  unfold roundToNat Format.number at *
  split at hx <;> rw [hx]

theorem roundToNat_of_infinite (hx : ofDouble x = double.number false a)
    (ha : double.infinity ≤ a) : roundToNat limit x = limit := by
  rw [roundToNat, hx, Format.number, if_neg (Nat.not_lt.2 ha)]

theorem roundToNat_le (limit : Nat) (x : Float) : roundToNat limit x ≤ limit := by
  unfold roundToNat
  split
  · exact Nat.zero_le _
  · exact Nat.zero_le _
  · exact Nat.zero_le _
  · exact Nat.le_refl _
  · exact Nat.min_le_right _ _

/-- What a number without a minus sign is at most has none either, unless both are zero. -/
theorem eq_zero_or_of_signed_le (h : signed false a ≤ signed nb b) : a = 0 ∨ nb = false ∧ a ≤ b := by
  cases nb with
  | false => exact .inr ⟨rfl, Int.ofNat_le.1 h⟩
  | true =>
    simp only [signed, if_true, Bool.false_eq_true, if_false] at h
    exact .inl (by omega)

/-- **Rounding to a whole number keeps the order of two numbers.** -/
theorem roundToNat_mono (limit : Nat) (h : x ≤ y) : roundToNat limit x ≤ roundToNat limit y := by
  obtain ⟨na, a, hx⟩ := exists_number (ne_nan_of_le h).1
  obtain ⟨nb, b, hy⟩ := exists_number (ne_nan_of_le h).2
  have hinfinity := infinity_double_pos
  cases na with
  | true =>
    rw [roundToNat_of_negative hx]
    exact Nat.zero_le _
  | false =>
    rcases eq_zero_or_of_signed_le ((double_le_iff_signed hx hy).1 h) with hzero | ⟨rfl, hab⟩
    · obtain rfl : a = 0 := by omega
      rw [roundToNat_zero (hx.trans (if_pos hinfinity))]
      exact Nat.zero_le _
    · rcases Nat.lt_or_ge b double.infinity with hb | hb
      · have ha : a < double.infinity := by omega
        have hvalue : double.value a ≤ double.value b :=
          double.value_strictMono.monotone (by omega)
        rw [roundToNat_of_finite (hx.trans (if_pos ha)), roundToNat_of_finite (hy.trans (if_pos hb))]
        exact min_le_min_right _ (Nat.floor_mono (add_le_add_left hvalue _))
      · rw [roundToNat_of_infinite hy hb]
        exact roundToNat_le _ _

end NeighborSearch.Binary
