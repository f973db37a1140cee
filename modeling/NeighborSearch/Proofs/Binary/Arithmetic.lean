import NeighborSearch.Proofs.Binary.Nearest

/-! Rounded arithmetic.

The arithmetic keeps a significand with two bits for what lies behind its last one: whether that
is at least a half, and whether there is anything beside the half (`Represents`). Shifting keeps
these bits right, and they are enough to round to the nearest whole number (`Represents.isRound`).
So the result of an operation is the value that the exact result rounds to, infinite beyond the
greatest one (`decode_roundWithAccuracy`), for products, quotients and whole numbers alike. -/
namespace NeighborSearch.Binary
open Float.Model (UnpackedFloat totalExponent)
open Float.Model.UnpackedFloat (Sign pack Accuracy ExtendedMantissa)

/-! ### Significands with residual bits -/

/-- What lies behind the last bit of the significand is less than a unit, and the residual bits
say what they should. -/
def Represents (em : ExtendedMantissa) (y : ℚ) : Prop :=
  ∃ r : ℚ, 0 ≤ r ∧ r < 1 / 2 ∧ (em.stickyBit = true ↔ r ≠ 0) ∧
    y = em.mantissa + (if em.roundBit then 1 / 2 else 0) + r

namespace Represents
variable {em : ExtendedMantissa} {y : ℚ}

theorem exact (m : Nat) : Represents (.ofMantissaAndAccuracy m .exact) m :=
  ⟨0, le_rfl, by norm_num, by simp [ExtendedMantissa.ofMantissaAndAccuracy],
    by simp [ExtendedMantissa.ofMantissaAndAccuracy]⟩

theorem shiftRightOne (h : Represents em y) : Represents em.shiftRightOne (y / 2) := by
  obtain ⟨r, hr, hlt, hsticky, rfl⟩ := h
  have hhalf : (em.mantissa : ℚ) = 2 * (em.mantissa / 2 : Nat) + (em.mantissa % 2 : Nat) := by
    exact_mod_cast (Nat.div_add_mod em.mantissa 2).symm
  refine ⟨(if em.roundBit then 1 / 4 else 0) + r / 2, ?_, ?_, ?_, ?_⟩
  · split <;> linarith
  · split <;> linarith
  · rw [ExtendedMantissa.shiftRightOne]
    cases em.roundBit with
    | false => simp [hsticky]
    | true =>
      have : (1 / 4 : ℚ) + r / 2 ≠ 0 := by linarith
      simpa using this
  · rw [ExtendedMantissa.shiftRightOne, hhalf]
    rcases Nat.mod_two_eq_zero_or_one em.mantissa with hm | hm <;> rw [hm] <;>
      cases em.roundBit <;> simp <;> ring

theorem shiftRight (h : Represents em y) (n : Nat) : Represents (em >>> n) (y / 2 ^ n) := by
  induction n with
  | zero =>
    rw [pow_zero, div_one]
    exact h
  | succ n ih =>
    rw [pow_succ, ← div_div]
    exact ih.shiftRightOne

/-- Two bits are enough to round. -/
theorem isRound (h : Represents em y) : IsRound y em.roundedMantissa := by
  obtain ⟨r, hr, hlt, hsticky, rfl⟩ := h
  obtain ⟨m, round, sticky⟩ := em
  simp only at hsticky ⊢
  cases round <;> cases sticky
  · obtain rfl : r = 0 := by simpa using hsticky
    simpa [ExtendedMantissa.roundedMantissa, ExtendedMantissa.accuracy,
      Accuracy.roundToNearestEven] using isRound_natCast m
  · show IsRound _ m
    refine ⟨.inl ?_, .inl ?_⟩ <;> simp <;> linarith
  · obtain rfl : r = 0 := by simpa using hsticky
    show IsRound _ (m + m % 2)
    rcases Nat.mod_two_eq_zero_or_one m with hm | hm <;> rw [hm]
    · exact ⟨.inl (by simp; linarith), .inr ⟨by simp, by omega⟩⟩
    · exact ⟨.inr ⟨by push_cast; simp; ring, by omega⟩, .inl (by push_cast; simp)⟩
  · have hpos : 0 < r := lt_of_le_of_ne hr (Ne.symm (by simpa using hsticky))
    show IsRound _ (m + 1)
    refine ⟨.inl ?_, .inl ?_⟩ <;> push_cast <;> simp <;> linarith

/-- The accuracy that a remainder stands for. -/
theorem quotient (n : Nat) {d : Nat} (hd : 0 < d) :
    Represents (.ofMantissaAndAccuracy (n / d)
      (Float.Model.UnpackedFloat.accuracyOfFraction (n % d) d)) ((n : ℚ) / d) := by
  have hd' : (0 : ℚ) < d := by exact_mod_cast hd
  have hlt : n % d < d := Nat.mod_lt n hd
  rw [div_eq_add_mod_div n hd, Float.Model.UnpackedFloat.accuracyOfFraction]
  generalize n / d = q
  generalize n % d = r at *
  have hr : (0 : ℚ) ≤ r / d := by positivity
  have hone : (r : ℚ) / d < 1 := by
    rw [div_lt_one hd']
    exact_mod_cast hlt
  by_cases hzero : r = 0
  · rw [if_pos hzero, hzero, Nat.cast_zero, zero_div, add_zero]
    exact exact q
  · have hne : (r : ℚ) / d ≠ 0 := div_ne_zero (by exact_mod_cast hzero) hd'.ne'
    rw [if_neg hzero]
    rcases Nat.lt_trichotomy (2 * r) d with hlt | heq | hgt
    · rw [Nat.compare_eq_lt.2 hlt]
      refine ⟨r / d, hr, ?_, by simpa [ExtendedMantissa.ofMantissaAndAccuracy] using hne,
        by simp [ExtendedMantissa.ofMantissaAndAccuracy]⟩
      rw [div_lt_div_iff₀ hd' two_pos, one_mul, mul_comm]
      exact_mod_cast hlt
    · rw [Nat.compare_eq_eq.2 heq]
      have hhalf : (r : ℚ) / d = 1 / 2 := by
        rw [div_eq_div_iff hd'.ne' two_ne_zero, one_mul, mul_comm]
        exact_mod_cast heq
      exact ⟨0, le_rfl, by norm_num, by simp [ExtendedMantissa.ofMantissaAndAccuracy],
        by rw [hhalf]; simp [ExtendedMantissa.ofMantissaAndAccuracy]⟩
    · rw [Nat.compare_eq_gt.2 hgt]
      have hhalf : 1 / 2 < (r : ℚ) / d := by
        rw [div_lt_div_iff₀ two_pos hd', one_mul, mul_comm]
        exact_mod_cast hgt
      refine ⟨r / d - 1 / 2, by linarith, by linarith, ?_, ?_⟩
      · have hne' : (r : ℚ) / d - 1 / 2 ≠ 0 := by linarith
        simpa [ExtendedMantissa.ofMantissaAndAccuracy] using hne'
      · simp [ExtendedMantissa.ofMantissaAndAccuracy]

theorem mantissa_le (h : Represents em y) : (em.mantissa : ℚ) ≤ y := by
  obtain ⟨r, hr, hlt, hsticky, rfl⟩ := h
  split <;> linarith

theorem lt_mantissa_add_one (h : Represents em y) : y < em.mantissa + 1 := by
  obtain ⟨r, hr, hlt, hsticky, rfl⟩ := h
  split <;> linarith

end Represents

/-! ### Rounding a significand -/

theorem log2_shiftLeft {m : Nat} (hm : 0 < m) (s : Nat) : (m <<< s).log2 = m.log2 + s := by
  rw [Nat.shiftLeft_eq, Nat.log2_eq_iff (Nat.mul_pos hm (Nat.two_pow_pos s)).ne']
  constructor
  · rw [pow_add]
    exact Nat.mul_le_mul_right _ (Nat.log2_self_le hm.ne')
  · rw [Nat.add_right_comm, pow_add]
    exact Nat.mul_lt_mul_of_pos_right Nat.lt_log2_self (Nat.two_pow_pos s)

section Model
variable {F : Float.Model.Format}

theorem minExponent_eq : F.minExponent = (Format.ofModel F).leastExponent := by
  rw [Format.leastExponent_eq, Float.Model.Format.minExponent, Float.Model.Format.mantissaBits]
  show _ = 2 - 2 ^ (F.exponentBits - 1) - (F.mantissaBitsWithoutImplicit : Int)
  push_cast
  ring

theorem targetExponent_eq (m : Nat) (e : Int) : F.targetExponent (totalExponent m e) =
    max (m.log2 + e - F.mantissaBitsWithoutImplicit) (Format.ofModel F).leastExponent := by
  rw [Float.Model.Format.targetExponent, minExponent_eq, totalExponent,
    Float.Model.Format.mantissaBits]
  congr 1
  push_cast
  ring

theorem number_zero (negative : Bool) :
    (Format.ofModel F).number negative 0 = .finite negative 0 := by
  have hinfinity : 0 < (Format.ofModel F).infinity := by
    rw [Format.infinity_eq]
    exact Nat.mul_pos (Nat.sub_pos_of_lt (Nat.one_lt_two_pow F.he.ne')) (Nat.two_pow_pos _)
  rw [Format.number, if_pos hinfinity]

theorem shiftToTargetExponent_eq (accuracy : Accuracy) {m : Nat} {e : Int} {s : Nat}
    (h : (F.targetExponent (totalExponent m e) - e).toNat = s) :
    UnpackedFloat.shiftToTargetExponent F m e accuracy =
      (ExtendedMantissa.ofMantissaAndAccuracy m accuracy >>> s, e + s) := by
  rw [UnpackedFloat.shiftToTargetExponent, UnpackedFloat.shiftToExponent, h]

variable (hF : 2 ≤ F.exponentBits) (negative : Bool)
include hF

/-- A rounded significand, which may have become a power of two, is put into its canonical form
and packed to its place. -/
theorem decode_canonical {j m : Nat} {em : ExtendedMantissa} {e : Int}
    (hj : j = 0 ∨ 2 ^ F.mantissaBitsWithoutImplicit ≤ m)
    (hm : m ≤ 2 * 2 ^ F.mantissaBitsWithoutImplicit)
    (hshift : UnpackedFloat.shiftToTargetExponent F m ((Format.ofModel F).leastExponent + j)
      .exact = (em, e)) :
    (Format.ofModel F).decode (pack F (if h : em.mantissa = 0 then .zero (signOf negative)
      else .finite (signOf negative) em.mantissa e (Nat.pos_of_ne_zero h))).toNat =
        (Format.ofModel F).number negative
          (j * 2 ^ F.mantissaBitsWithoutImplicit + m) := by
  have hpos := Nat.two_pow_pos F.mantissaBitsWithoutImplicit
  have htarget := targetExponent_eq (F := F) m ((Format.ofModel F).leastExponent + j)
  rcases Nat.lt_or_eq_of_le hm with hlt | hpower
  · have hlog : m.log2 ≤ F.mantissaBitsWithoutImplicit := by
      rcases Nat.eq_zero_or_pos m with rfl | hm
      · exact Nat.zero_le _
      · rw [← Nat.pow_succ'] at hlt
        exact Nat.le_of_lt_succ ((Nat.log2_lt hm.ne').2 hlt)
    have hstay := shiftToTargetExponent_eq (F := F) .exact (s := 0)
      (m := m) (e := (Format.ofModel F).leastExponent + j) (by rw [htarget]; omega)
    rw [hstay, Nat.cast_zero, add_zero] at hshift
    cases hshift
    rcases Nat.eq_zero_or_pos m with rfl | hm
    · have hj0 : j = 0 := hj.resolve_right (by omega)
      rw [hj0, Nat.zero_mul, Nat.add_zero, number_zero]
      exact decode_packedZero negative
    · have hpack := decode_pack_finite hF negative hm hlt
        (show (Format.ofModel F).leastExponent ≤ (Format.ofModel F).leastExponent + j by omega)
        (hj.imp (fun h => by omega) id)
      rw [show ((Format.ofModel F).leastExponent + j -
        (Format.ofModel F).leastExponent).toNat = j by omega] at hpack
      rw [dif_neg (show (ExtendedMantissa.ofMantissaAndAccuracy m .exact >>> 0).mantissa ≠ 0 from
        hm.ne')]
      exact hpack
  · have hlog : m.log2 = F.mantissaBitsWithoutImplicit + 1 := by
      rw [hpower, ← Nat.pow_succ', Nat.log2_two_pow]
    have hcarry := shiftToTargetExponent_eq (F := F) .exact (s := 1)
      (m := m) (e := (Format.ofModel F).leastExponent + j) (by rw [htarget]; omega)
    rw [hcarry] at hshift
    cases hshift
    have hhalf : (ExtendedMantissa.ofMantissaAndAccuracy m .exact >>> 1).mantissa =
        2 ^ F.mantissaBitsWithoutImplicit := by
      show m / 2 = _
      omega
    have hpack := decode_pack_finite hF negative hpos (by omega)
      (show (Format.ofModel F).leastExponent ≤
        (Format.ofModel F).leastExponent + j + (1 : Nat) by omega) (.inr le_rfl)
    rw [show ((Format.ofModel F).leastExponent + j + (1 : Nat) -
      (Format.ofModel F).leastExponent).toNat = j + 1 by omega, Nat.succ_mul j] at hpack
    simp only [hhalf]
    rw [dif_neg hpos.ne', show j * 2 ^ F.mantissaBitsWithoutImplicit + m =
      j * 2 ^ F.mantissaBitsWithoutImplicit + 2 ^ F.mantissaBitsWithoutImplicit +
        2 ^ F.mantissaBitsWithoutImplicit by omega]
    exact hpack

/-- The result of rounding is the value that the exact number rounds to. -/
theorem decode_roundWithAccuracy {m : Nat} {e : Int} {accuracy : Accuracy} {y : ℚ}
    (hy : Represents (.ofMantissaAndAccuracy m accuracy) y)
    (he : e ≤ F.targetExponent (totalExponent m e)) :
    ∃ k, (Format.ofModel F).Rounds (y * 2 ^ e) k ∧
      (Format.ofModel F).decode
        (pack F (.roundWithAccuracy F (signOf negative) m e accuracy)).toNat =
          (Format.ofModel F).number negative k := by
  have hm : (ExtendedMantissa.ofMantissaAndAccuracy m accuracy).mantissa = m := by
    cases accuracy with
    | exact => rfl
    | inexact ordering => cases ordering <;> rfl
  have hp : 0 < (Format.ofModel F).fractionBits := F.hm
  have hlow : (m : ℚ) ≤ y := hm ▸ hy.mantissa_le
  have hhigh : y < m + 1 := hm ▸ hy.lt_mantissa_add_one
  have htarget := targetExponent_eq (F := F) m e
  generalize ht : F.targetExponent (totalExponent m e) = t at *
  obtain ⟨s, rfl⟩ : ∃ s : Nat, t = e + s := ⟨(t - e).toNat, by omega⟩
  obtain ⟨j, hj⟩ : ∃ j : Nat, e + s = (Format.ofModel F).leastExponent + j :=
    ⟨(e + s - (Format.ofModel F).leastExponent).toNat, by omega⟩
  have hfirst := shiftToTargetExponent_eq accuracy
    (show (F.targetExponent (totalExponent m e) - e).toNat = s by rw [ht]; omega)
  have hround := (hy.shiftRight s).isRound
  -- the shifted number has the size of a significand
  have hupper : y / 2 ^ s < 2 * 2 ^ (Format.ofModel F).fractionBits := by
    have hbits : m + 1 ≤ 2 * 2 ^ (Format.ofModel F).fractionBits * 2 ^ s := by
      rw [← pow_succ', ← pow_add]
      refine (Nat.succ_le_of_lt Nat.lt_log2_self).trans (Nat.pow_le_pow_right two_pos ?_)
      show m.log2 + 1 ≤ F.mantissaBitsWithoutImplicit + 1 + s
      omega
    rw [div_lt_iff₀ (by positivity)]
    exact hhigh.trans_le (by exact_mod_cast hbits)
  have hlower : j = 0 ∨ (2 : ℚ) ^ (Format.ofModel F).fractionBits ≤ y / 2 ^ s := by
    rcases Nat.eq_zero_or_pos j with h0 | hpos
    · exact .inl h0
    · right
      have hlog : m.log2 = (Format.ofModel F).fractionBits + s := by
        show m.log2 = F.mantissaBitsWithoutImplicit + s
        omega
      have hne : m ≠ 0 := by
        rintro rfl
        rw [Nat.log2_zero] at hlog
        omega
      have hbits := Nat.log2_self_le hne
      rw [hlog, pow_add] at hbits
      rw [le_div_iff₀ (by positivity)]
      exact le_trans (by exact_mod_cast hbits) hlow
  have hx : y * 2 ^ e = y / 2 ^ s * 2 ^ ((Format.ofModel F).leastExponent + j) := by
    rw [← hj, zpow_add₀ two_ne_zero, zpow_natCast]
    field_simp
  refine ⟨_, Format.rounds_of_isRound hp hx hround hlower hupper, ?_⟩
  unfold UnpackedFloat.roundWithAccuracy
  simp only [hfirst, hj]
  exact decode_canonical hF negative
    (hlower.imp id fun h => hround.le_of_le (by exact_mod_cast h))
    (hround.le_of_lt (by exact_mod_cast hupper)) rfl

/-! ### Operations -/

theorem decode_round {m : Nat} (hm : 0 < m) (e : Int) :
    ∃ k, (Format.ofModel F).Rounds (m * 2 ^ e) k ∧
      (Format.ofModel F).decode (pack F (.round F (signOf negative) m e)).toNat =
        (Format.ofModel F).number negative k := by
  have htarget := targetExponent_eq (F := F) m e
  rw [UnpackedFloat.round, UnpackedFloat.decreaseExponent]
  generalize F.targetExponent (totalExponent m e) = t at *
  generalize hs : (e - t).toNat = s
  have hvalue : (m : ℚ) * 2 ^ e = (m <<< s : Nat) * 2 ^ (e - s) := by
    rw [Nat.shiftLeft_eq, zpow_sub₀ two_ne_zero, zpow_natCast]
    push_cast
    field_simp
  rw [hvalue]
  refine decode_roundWithAccuracy hF negative (Represents.exact _) ?_
  rw [targetExponent_eq, log2_shiftLeft hm]
  omega

end Model

/-! ### Products and quotients -/

theorem leastExponent_nonpos (f : Format) (hf : 2 ≤ f.exponentBits) : f.leastExponent ≤ 0 := by
  have hpow : 2 ^ 1 ≤ 2 ^ (f.exponentBits - 1) := Nat.pow_le_pow_right two_pos (by omega)
  rw [Format.leastExponent, show Nat.pow 2 (f.exponentBits - 1) = 2 ^ (f.exponentBits - 1) from rfl]
  omega

theorem signOf_mul (a b : Bool) : signOf a * signOf b = signOf (a ^^ b) := by
  cases a <;> cases b <;> rfl

theorem signOf_div (a b : Bool) : signOf a / signOf b = signOf (a ^^ b) := by
  cases a <;> cases b <;> rfl

theorem neg_signOf (negative : Bool) : -signOf negative = signOf (!negative) := by
  cases negative <;> rfl

section Operations
variable {F : Float.Model.Format}

/-- A value other than zero as the arithmetic takes it. -/
theorem exists_unpacked (negative : Bool) {k : Nat} (hk : k ≠ 0) : ∃ j m : Nat, ∃ hm : 0 < m,
    (Format.ofModel F).unpacked (.finite negative k) =
      .finite (signOf negative) m ((Format.ofModel F).leastExponent + j) hm ∧
    (Format.ofModel F).value k = m * 2 ^ ((Format.ofModel F).leastExponent + j) ∧
    (j = 0 ∨ 2 ^ F.mantissaBitsWithoutImplicit ≤ m) := by
  obtain ⟨j, m, rfl, hj, hm⟩ := (Format.ofModel F).exists_canonical k
  have hpos : 0 < m := by
    rcases hj with rfl | hj
    · omega
    · exact (Nat.two_pow_pos _).trans_le hj
  refine ⟨j, m, hpos, ?_, Format.value_canonical hj hm.le, hj⟩
  rw [Format.unpacked, dif_neg hk]
  exact finite_congr (Format.significand_canonical hj hm) (Format.exponent_canonical hj hm) _ _

def Number.neg : Number → Number
  | .nan => .nan
  | .infinite negative => .infinite (!negative)
  | .finite negative magnitude => .finite (!negative) magnitude

theorem neg_unpacked (f : Format) (n : Number) : (f.unpacked n).neg = f.unpacked n.neg := by
  cases n with
  | nan => rfl
  | infinite negative => exact congrArg UnpackedFloat.infinity (neg_signOf negative)
  | finite negative magnitude =>
    rw [Number.neg, Format.unpacked, Format.unpacked]
    split
    · exact congrArg UnpackedFloat.zero (neg_signOf negative)
    · rw [UnpackedFloat.neg, neg_signOf]

theorem unpacked_zero (f : Format) (negative : Bool) :
    f.unpacked (.finite negative 0) = .zero (signOf negative) := rfl

/-- A finite number is nothing beside an infinity. -/
theorem div_unpacked_infinite (f : Format) (na nb : Bool) (a : Nat) :
    UnpackedFloat.div F (f.unpacked (.finite na a)) (f.unpacked (.infinite nb)) =
      .zero (signOf (na ^^ nb)) := by
  rw [Format.unpacked, Format.unpacked, ← signOf_div]
  split <;> rfl

/-- The result zero, which is exact. -/
theorem decode_zero (negative : Bool) {x : ℚ} (hx : x = 0) :
    ∃ k, (Format.ofModel F).Rounds x k ∧
      (Format.ofModel F).decode (pack F (.zero (signOf negative))).toNat =
        (Format.ofModel F).number negative k := by
  refine ⟨0, ?_, ?_⟩
  · rw [hx, ← (Format.ofModel F).value_zero]
    exact Format.rounds_value _ 0
  · rw [number_zero]
    exact decode_packedZero negative

variable (hF : 2 ≤ F.exponentBits) (na nb : Bool) (a b : Nat)
include hF

theorem decode_mul : ∃ k,
    (Format.ofModel F).Rounds ((Format.ofModel F).value a * (Format.ofModel F).value b) k ∧
      (Format.ofModel F).decode (pack F (.mul F
        ((Format.ofModel F).unpacked (.finite na a))
        ((Format.ofModel F).unpacked (.finite nb b)))).toNat =
          (Format.ofModel F).number (na ^^ nb) k := by
  have hleast := leastExponent_nonpos (Format.ofModel F) hF
  by_cases ha : a = 0
  · have hzero : UnpackedFloat.mul F ((Format.ofModel F).unpacked (.finite na a))
        ((Format.ofModel F).unpacked (.finite nb b)) = .zero (signOf (na ^^ nb)) := by
      rw [ha, unpacked_zero, ← signOf_mul]
      by_cases hb : b = 0
      · rw [hb, unpacked_zero]
        rfl
      · obtain ⟨j, m, hm, hb, -⟩ := exists_unpacked (F := F) nb hb
        rw [hb]
        rfl
    rw [hzero]
    exact decode_zero _ (by rw [ha, Format.value_zero, zero_mul])
  · obtain ⟨i, m, hm, hunpacked, hvalue, hi⟩ := exists_unpacked (F := F) na ha
    by_cases hb : b = 0
    · have hzero : UnpackedFloat.mul F ((Format.ofModel F).unpacked (.finite na a))
          ((Format.ofModel F).unpacked (.finite nb b)) = .zero (signOf (na ^^ nb)) := by
        rw [hb, unpacked_zero, ← signOf_mul, hunpacked]
        rfl
      rw [hzero]
      exact decode_zero _ (by rw [hb, Format.value_zero, mul_zero])
    · obtain ⟨j, n, hn, hunpacked', hvalue', hj⟩ := exists_unpacked (F := F) nb hb
      rw [hunpacked, hunpacked', hvalue, hvalue', UnpackedFloat.mul, signOf_mul,
        mul_mul_mul_comm, ← zpow_add₀ two_ne_zero, ← Nat.cast_mul]
      refine decode_roundWithAccuracy hF _ (Represents.exact _) ?_
      rw [targetExponent_eq]
      -- the product has at least as many bits as each of its factors
      have hbits : ∀ {c : Nat}, 2 ^ F.mantissaBitsWithoutImplicit ≤ c → c ≤ m * n →
          F.mantissaBitsWithoutImplicit ≤ (m * n).log2 := fun hc hle =>
        (Nat.le_log2 (Nat.mul_pos hm hn).ne').2 (hc.trans hle)
      rcases hi with rfl | hi
      · rcases hj with rfl | hj
        · omega
        · have := hbits hj (Nat.le_mul_of_pos_left _ hm)
          omega
      · have := hbits hi (Nat.le_mul_of_pos_right _ hn)
        omega

theorem decode_div (hb : b ≠ 0) : ∃ k,
    (Format.ofModel F).Rounds ((Format.ofModel F).value a / (Format.ofModel F).value b) k ∧
      (Format.ofModel F).decode (pack F (.div F
        ((Format.ofModel F).unpacked (.finite na a))
        ((Format.ofModel F).unpacked (.finite nb b)))).toNat =
          (Format.ofModel F).number (na ^^ nb) k := by
  obtain ⟨j, n, hn, hunpacked', hvalue', hj⟩ := exists_unpacked (F := F) nb hb
  by_cases ha : a = 0
  · have hzero : UnpackedFloat.div F ((Format.ofModel F).unpacked (.finite na a))
        ((Format.ofModel F).unpacked (.finite nb b)) = .zero (signOf (na ^^ nb)) := by
      rw [ha, unpacked_zero, ← signOf_div, hunpacked']
      rfl
    rw [hzero]
    exact decode_zero _ (by rw [ha, Format.value_zero, zero_div])
  · obtain ⟨i, m, hm, hunpacked, hvalue, hi⟩ := exists_unpacked (F := F) na ha
    rw [hunpacked, hunpacked', hvalue, hvalue', UnpackedFloat.div, signOf_div,
      Float.Model.UnpackedFloat.divCore]
    dsimp only
    generalize (Format.ofModel F).leastExponent + (i : Int) = e at *
    generalize (Format.ofModel F).leastExponent + (j : Int) = e' at *
    have htarget : F.targetExponent (totalExponent m e - totalExponent n e') =
        max (m.log2 + e - (n.log2 + e') - 1 - F.mantissaBitsWithoutImplicit)
          (Format.ofModel F).leastExponent := by
      rw [Float.Model.Format.targetExponent, minExponent_eq, totalExponent, totalExponent,
        Float.Model.Format.mantissaBits]
      congr 1
      push_cast
      ring
    generalize F.targetExponent (totalExponent m e - totalExponent n e') = t at *
    generalize hu : min (e - e') t = u
    obtain ⟨s, hs⟩ : ∃ s : Nat, e - e' = u + s := ⟨(e - e' - u).toNat, by omega⟩
    have hshift : (e - e' - u).toNat = s := by omega
    have hx : (m : ℚ) * 2 ^ e / (n * 2 ^ e') = (m <<< s : Nat) / n * 2 ^ u := by
      rw [mul_div_mul_comm, ← zpow_sub₀ two_ne_zero, hs, zpow_add₀ two_ne_zero, zpow_natCast,
        Nat.shiftLeft_eq]
      push_cast
      ring
    rw [hshift, hx]
    refine decode_roundWithAccuracy hF _ (Represents.quotient _ hn) ?_
    rw [targetExponent_eq]
    by_cases hsubnormal : t = (Format.ofModel F).leastExponent
    · omega
    · -- the quotient has all bits of a significand
      have hbits : F.mantissaBitsWithoutImplicit ≤ (m <<< s / n).log2 := by
        have hq : 2 ^ F.mantissaBitsWithoutImplicit ≤ m <<< s / n := by
          rw [Nat.le_div_iff_mul_le hn, Nat.shiftLeft_eq]
          calc 2 ^ F.mantissaBitsWithoutImplicit * n
              ≤ 2 ^ F.mantissaBitsWithoutImplicit * 2 ^ (n.log2 + 1) :=
                Nat.mul_le_mul_left _ Nat.lt_log2_self.le
            _ ≤ 2 ^ m.log2 * 2 ^ s := by
                rw [← pow_add, ← pow_add]
                exact Nat.pow_le_pow_right two_pos (by omega)
            _ ≤ m * 2 ^ s := Nat.mul_le_mul_right _ (Nat.log2_self_le hm.ne')
        exact (Nat.le_log2 ((Nat.two_pow_pos _).trans_le hq).ne').2 hq
      omega

end Operations

end NeighborSearch.Binary
