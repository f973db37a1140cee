import Mathlib
import NeighborSearch.Binary.Format

/-! Bit patterns by their fields.

The arithmetic takes a bit pattern apart into a sign, an exponent field and a fraction field, and
reads a value off these; the library reads a magnitude, which is the two fields side by side. Both
read one number (`unpack_eq`), and a value that is packed in its canonical form is read back
(`decode_pack_finite`): its magnitude grows by `2 ^ fractionBits` for each step of the exponent. -/
namespace NeighborSearch.Binary
open Float.Model (UnpackedFloat)
open Float.Model.UnpackedFloat (Sign unpackExponent unpackMantissa unpackSign packComponents pack)

/-- The format that the arithmetic works in. -/
def Format.ofModel (F : Float.Model.Format) : Format :=
  ⟨F.mantissaBitsWithoutImplicit, F.exponentBits⟩

/-! ### A magnitude by its fields -/

namespace Format
variable {f : Format} {e m : Nat}

theorem signBit_eq (f : Format) : f.signBit = 2 ^ f.fractionBits * 2 ^ f.exponentBits := by
  rw [← pow_add, Nat.add_comm]
  rfl

theorem infinity_eq (f : Format) :
    f.infinity = (2 ^ f.exponentBits - 1) * 2 ^ f.fractionBits := rfl

theorem leastExponent_eq (f : Format) :
    f.leastExponent = 2 - 2 ^ (f.exponentBits - 1) - f.fractionBits := by
  rw [leastExponent, show Nat.pow 2 (f.exponentBits - 1) = 2 ^ (f.exponentBits - 1) from rfl]
  push_cast
  rfl

theorem significand_fields (hm : m < 2 ^ f.fractionBits) :
    f.significand (e * 2 ^ f.fractionBits + m) = if e = 0 then m else 2 ^ f.fractionBits + m := by
  rw [significand, show Nat.pow 2 f.fractionBits = 2 ^ f.fractionBits from rfl]
  by_cases he : e = 0
  · subst he
    rw [Nat.zero_mul, Nat.zero_add, if_pos hm, if_pos rfl]
  · have hle : 2 ^ f.fractionBits ≤ e * 2 ^ f.fractionBits :=
      Nat.le_mul_of_pos_left _ (Nat.pos_of_ne_zero he)
    rw [if_neg (by omega), if_neg he, Nat.mul_add_mod', Nat.mod_eq_of_lt hm, Nat.add_comm]

theorem exponent_fields (hm : m < 2 ^ f.fractionBits) :
    f.exponent (e * 2 ^ f.fractionBits + m) = f.leastExponent + ((e - 1 : Nat) : Int) := by
  rw [exponent, show Nat.pow 2 f.fractionBits = 2 ^ f.fractionBits from rfl, Nat.add_comm,
    Nat.add_mul_div_right _ _ (Nat.two_pow_pos _), Nat.div_eq_of_lt hm, Nat.zero_add]

theorem decode_fields {n : Nat} (hn : n % f.signBit = e * 2 ^ f.fractionBits + m)
    (he : e < 2 ^ f.exponentBits) (hm : m < 2 ^ f.fractionBits) :
    f.decode n =
      if e = 2 ^ f.exponentBits - 1 then
        if m = 0 then .infinite (decide (f.signBit ≤ n)) else .nan
      else .finite (decide (f.signBit ≤ n)) (e * 2 ^ f.fractionBits + m) := by
  simp only [decode, hn, infinity_eq]
  by_cases hinf : e = 2 ^ f.exponentBits - 1
  · rw [← hinf, if_pos rfl]
    by_cases hz : m = 0
    · rw [if_neg (by omega), if_pos (by omega), if_pos hz]
    · rw [if_pos (by omega), if_neg hz]
  · have hlt : (e + 1) * 2 ^ f.fractionBits ≤ (2 ^ f.exponentBits - 1) * 2 ^ f.fractionBits :=
      Nat.mul_le_mul_right _ (by omega)
    rw [Nat.succ_mul] at hlt
    rw [if_neg (by omega), if_neg (by omega), if_neg hinf]

/-- A finite number has one bit pattern. -/
theorem pattern_of_decode {n magnitude : Nat} {negative : Bool} (hn : n < 2 * f.signBit)
    (h : f.decode n = .finite negative magnitude) : f.pattern negative magnitude = n := by
  have hvalue : decide (f.signBit ≤ n) = negative ∧ n % f.signBit = magnitude := by
    simp only [decode] at h
    split at h
    · cases h
    · split at h
      · cases h
      · cases h
        exact ⟨rfl, rfl⟩
  obtain ⟨rfl, rfl⟩ := hvalue
  rw [pattern]
  by_cases hle : f.signBit ≤ n
  · rw [if_pos (by simpa using hle), Nat.mod_eq_sub_mod hle, Nat.mod_eq_of_lt (by omega)]
    omega
  · rw [if_neg (by simpa using hle), Nat.mod_eq_of_lt (by omega)]

theorem infinity_lt_signBit (f : Format) : f.infinity < f.signBit := by
  rw [infinity_eq, signBit_eq, Nat.mul_comm (2 ^ f.fractionBits)]
  exact Nat.mul_lt_mul_of_pos_right (Nat.sub_lt (Nat.two_pow_pos _) Nat.one_pos)
    (Nat.two_pow_pos _)

theorem decode_pattern {magnitude : Nat} (negative : Bool) (h : magnitude < f.infinity) :
    f.decode (f.pattern negative magnitude) = .finite negative magnitude := by
  have hlt := h.trans f.infinity_lt_signBit
  cases negative with
  | false =>
    have hpattern : f.pattern false magnitude = magnitude := rfl
    rw [decode, hpattern, Nat.mod_eq_of_lt hlt, if_neg (by omega), if_neg (by omega),
      decide_eq_false (by omega)]
  | true =>
    have hpattern : f.pattern true magnitude = f.signBit + magnitude := rfl
    rw [decode, hpattern, Nat.add_mod_left, Nat.mod_eq_of_lt hlt, if_neg (by omega),
      if_neg (by omega), decide_eq_true (by omega)]

theorem pattern_lt {magnitude : Nat} (negative : Bool) (h : magnitude < f.infinity) :
    f.pattern negative magnitude < 2 * f.signBit := by
  have hlt := h.trans f.infinity_lt_signBit
  rw [pattern]
  split <;> omega

theorem significand_pos {magnitude : Nat} (h : magnitude ≠ 0) : 0 < f.significand magnitude := by
  rw [Format.significand]
  split
  · exact Nat.pos_of_ne_zero h
  · exact Nat.add_pos_right _ (Nat.two_pow_pos _)

end Format

theorem magnitude_lt_infinity {f : Format} {pattern magnitude : Nat} {negative : Bool}
    (h : f.decode pattern = .finite negative magnitude) : magnitude < f.infinity := by
  simp only [Format.decode] at h
  split at h
  · cases h
  · split at h
    · cases h
    · cases h
      omega

theorem magnitude_eq_infinity {f : Format} {pattern : Nat} {negative : Bool}
    (h : f.decode pattern = .infinite negative) :
    pattern % f.signBit = f.infinity ∧ negative = decide (f.signBit ≤ pattern) := by
  simp only [Format.decode] at h
  split at h
  · cases h
  · split at h
    · rename_i hmagnitude
      cases h
      exact ⟨hmagnitude, rfl⟩
    · cases h

/-! ### The fields of a bit pattern -/

section Pattern
variable {F : Float.Model.Format} (b : BitVec F.numBits)

theorem toNat_unpackExponent : (unpackExponent b).toNat =
    b.toNat / 2 ^ F.mantissaBitsWithoutImplicit % 2 ^ F.exponentBits := by
  rw [Float.Model.UnpackedFloat.unpackExponent_def, BitVec.extractLsb'_toNat,
    Nat.shiftRight_eq_div_pow]

theorem toNat_unpackMantissa :
    (unpackMantissa b).toNat = b.toNat % 2 ^ F.mantissaBitsWithoutImplicit := by
  rw [Float.Model.UnpackedFloat.unpackMantissa_def, BitVec.extractLsb'_toNat, Nat.shiftRight_zero]

theorem unpackSign_eq_zero_iff :
    unpackSign b = 0#1 ↔ b.toNat < (Format.ofModel F).signBit := by
  have hb := b.isLt
  have hbits : 2 ^ F.numBits = (Format.ofModel F).signBit * 2 := by
    rw [Format.signBit_eq, ← pow_add, ← pow_succ]
    congr 1
    show 1 + F.exponentBits + F.mantissaBitsWithoutImplicit =
      F.mantissaBitsWithoutImplicit + F.exponentBits + 1
    omega
  rw [hbits] at hb
  rw [← BitVec.toNat_inj, Float.Model.UnpackedFloat.unpackSign_def, BitVec.extractLsb'_toNat,
    Nat.shiftRight_eq_div_pow, pow_add]
  show b.toNat / (2 ^ (Format.ofModel F).fractionBits * 2 ^ (Format.ofModel F).exponentBits)
    % 2 ^ 1 = 0 % 2 ^ 1 ↔ _
  rw [← Format.signBit_eq, pow_one, Nat.zero_mod, Nat.mod_eq_of_lt (Nat.div_lt_of_lt_mul hb),
    Nat.div_eq_zero_iff]
  have hpos : 0 < (Format.ofModel F).signBit := by
    rw [Format.signBit_eq]
    positivity
  omega

/-- The magnitude of a pattern is its two fields side by side. -/
theorem toNat_mod_signBit : b.toNat % (Format.ofModel F).signBit =
    (unpackExponent b).toNat * 2 ^ F.mantissaBitsWithoutImplicit + (unpackMantissa b).toNat := by
  rw [toNat_unpackExponent, toNat_unpackMantissa, Format.signBit_eq, Nat.mod_mul, Nat.add_comm,
    Nat.mul_comm]
  rfl

def signOf (negative : Bool) : Sign := if negative then .negative else .positive

theorem ofBitVec_unpackSign :
    Sign.ofBitVec (unpackSign b) =
      signOf (decide ((Format.ofModel F).signBit ≤ b.toNat)) := by
  have hzero := unpackSign_eq_zero_iff b
  rw [Sign.ofBitVec, signOf]
  by_cases h : unpackSign b = 0#1
  · rw [if_pos h, if_neg (by simpa using hzero.1 h)]
  · rw [if_neg h, if_pos (by simpa using mt hzero.2 h)]

end Pattern

/-! ### What the arithmetic reads -/

/-- A number as the arithmetic takes it. -/
def Format.unpacked (f : Format) : Number → UnpackedFloat
  | .nan => .notANumber
  | .infinite negative => .infinity (signOf negative)
  | .finite negative magnitude =>
    if h : magnitude = 0 then .zero (signOf negative)
    else .finite (signOf negative) (f.significand magnitude) (f.exponent magnitude)
      (Format.significand_pos h)

theorem finite_congr {s : Sign} {m m' : Nat} {e e' : Int} (hm : m = m') (he : e = e')
    (h : 0 < m) (h' : 0 < m') : UnpackedFloat.finite s m e h = .finite s m' e' h' := by
  subst hm he
  rfl

section Model
variable {F : Float.Model.Format}

/-- The arithmetic counts exponents from the least one, which stands for two fields. -/
theorem exponentBias_add : (F.exponentBias : Int) + F.mantissaBitsWithoutImplicit =
    1 - (Format.ofModel F).leastExponent := by
  have hpow : 1 ≤ 2 ^ (F.exponentBits - 1) := Nat.one_le_two_pow
  rw [Format.leastExponent_eq, Float.Model.Format.exponentBias, Nat.cast_sub hpow]
  show _ = 1 - (2 - 2 ^ (F.exponentBits - 1) - (F.mantissaBitsWithoutImplicit : Int))
  push_cast
  ring

variable (hF : 2 ≤ F.exponentBits)
include hF

/-- The arithmetic and the library read one number off a bit pattern. -/
theorem unpack_eq (b : BitVec F.numBits) :
    UnpackedFloat.unpack F b =
      (Format.ofModel F).unpacked ((Format.ofModel F).decode b.toNat) := by
  have he : (unpackExponent b).toNat < 2 ^ (Format.ofModel F).exponentBits :=
    (unpackExponent b).isLt
  have hm : (unpackMantissa b).toNat < 2 ^ (Format.ofModel F).fractionBits :=
    (unpackMantissa b).isLt
  have hdecode := Format.decode_fields (toNat_mod_signBit b) he hm
  have hones : (-BitVec.ofNat F.exponentBits 1).toNat =
      2 ^ (Format.ofModel F).exponentBits - 1 := by
    rw [BitVec.neg_one_eq_allOnes, BitVec.toNat_allOnes]
    rfl
  have hpow : 4 ≤ 2 ^ (Format.ofModel F).exponentBits :=
    Nat.pow_le_pow_right (by decide : 0 < 2) hF
  have hbias : (F.exponentBias : Int) + F.mantissaBitsWithoutImplicit = _ :=
    exponentBias_add
  have hsig := Format.significand_fields (e := (unpackExponent b).toNat) hm
  have hexp := Format.exponent_fields (e := (unpackExponent b).toNat) hm
  rw [hdecode, UnpackedFloat.unpack]
  simp only [ofBitVec_unpackSign, ← BitVec.toNat_inj, hones, BitVec.toNat_ofNat, Nat.zero_mod]
  by_cases hinf : (unpackExponent b).toNat = 2 ^ (Format.ofModel F).exponentBits - 1
  · rw [if_pos hinf, if_pos hinf]
    by_cases hz : (unpackMantissa b).toNat = 0
    · rw [if_pos hz, if_pos hz]
      rfl
    · rw [if_neg hz, if_neg hz]
      rfl
  · rw [if_neg hinf, if_neg hinf, Format.unpacked]
    by_cases h0 : (unpackExponent b).toNat = 0
    · rw [if_pos h0] at hsig
      rw [if_pos h0]
      by_cases hz : (unpackMantissa b).toNat = 0
      · rw [dif_pos hz, dif_pos (by rw [h0, hz, Nat.zero_mul])]
      · rw [dif_neg hz, dif_neg (by rw [h0]; omega)]
        exact finite_congr hsig.symm (by rw [hexp, h0]; omega) _ _
    · have hle : 2 ^ (Format.ofModel F).fractionBits ≤
          (unpackExponent b).toNat * 2 ^ (Format.ofModel F).fractionBits :=
        Nat.le_mul_of_pos_left _ (Nat.pos_of_ne_zero h0)
      have hpos := Nat.two_pow_pos (Format.ofModel F).fractionBits
      rw [if_neg h0] at hsig
      rw [if_neg h0, dif_neg (by omega)]
      refine finite_congr ?_ (by rw [hexp]; omega) _ _
      rw [hsig, BitVec.toNat_append, BitVec.toNat_ofNat, Nat.shiftLeft_eq, Nat.or_comm, Nat.one_mod,
        Nat.one_mul, Nat.add_comm]
      exact Nat.or_two_pow_eq_add_of_lt hm

end Model

/-! ### What is packed is read back -/

/-- The number with this magnitude; from that of infinity on it is infinite. -/
def Format.number (f : Format) (negative : Bool) (magnitude : Nat) : Number :=
  if magnitude < f.infinity then .finite negative magnitude else .infinite negative

section Pack
variable {F : Float.Model.Format}

theorem signOf_injective {a b : Bool} (h : signOf a = signOf b) : a = b := by
  cases a <;> cases b <;> first | rfl | cases h

theorem decode_packComponents (negative : Bool) (e : BitVec F.exponentBits)
    (m : BitVec F.mantissaBitsWithoutImplicit) :
    (Format.ofModel F).decode (packComponents F (signOf negative) e m).toNat =
      if e.toNat = 2 ^ F.exponentBits - 1 then
        if m.toNat = 0 then .infinite negative else .nan
      else .finite negative (e.toNat * 2 ^ F.mantissaBitsWithoutImplicit + m.toNat) := by
  have hsign := ofBitVec_unpackSign (packComponents F (signOf negative) e m)
  rw [Float.Model.UnpackedFloat.unpackSign_packComponents, Sign.ofBitVec_toBitVec] at hsign
  have hmagnitude := toNat_mod_signBit (packComponents F (signOf negative) e m)
  rw [Float.Model.UnpackedFloat.unpackExponent_packComponents,
    Float.Model.UnpackedFloat.unpackMantissa_packComponents] at hmagnitude
  rw [Format.decode_fields hmagnitude e.isLt m.isLt, ← signOf_injective hsign]
  rfl

theorem decode_packedInfinity (negative : Bool) : (Format.ofModel F).decode
    (Float.Model.UnpackedFloat.packedInfinity F (signOf negative)).toNat =
      .infinite negative := by
  rw [Float.Model.UnpackedFloat.packedInfinity, decode_packComponents, if_pos, if_pos]
  · rfl
  · rw [BitVec.neg_one_eq_allOnes, BitVec.toNat_allOnes]

theorem decode_packedZero (negative : Bool) : (Format.ofModel F).decode
    (Float.Model.UnpackedFloat.packedZero F (signOf negative)).toNat = .finite negative 0 := by
  have hpow : 2 ≤ 2 ^ F.exponentBits :=
    Nat.pow_le_pow_right (by decide : 0 < 2) F.he
  rw [Float.Model.UnpackedFloat.packedZero, decode_packComponents, if_neg]
  · simp
  · simp
    omega

/-- A value in its canonical form, which has the leading bit or the least exponent, is packed to
the place it has among all values. -/
theorem decode_pack_finite (hF : 2 ≤ F.exponentBits) (negative : Bool) {m : Nat} {e : Int}
    (hpos : 0 < m) (hm : m < 2 * 2 ^ F.mantissaBitsWithoutImplicit)
    (he : (Format.ofModel F).leastExponent ≤ e)
    (hcanonical : e = (Format.ofModel F).leastExponent ∨
      2 ^ F.mantissaBitsWithoutImplicit ≤ m) :
    (Format.ofModel F).decode (pack F (.finite (signOf negative) m e hpos)).toNat =
      (Format.ofModel F).number negative
        ((e - (Format.ofModel F).leastExponent).toNat * 2 ^ F.mantissaBitsWithoutImplicit +
          m) := by
  have hbias : (F.exponentBias : Int) + F.mantissaBitsWithoutImplicit = _ :=
    exponentBias_add
  have hpow : 4 ≤ 2 ^ F.exponentBits := Nat.pow_le_pow_right (by decide : 0 < 2) hF
  have hinfinity : (Format.ofModel F).infinity =
      (2 ^ F.exponentBits - 1) * 2 ^ F.mantissaBitsWithoutImplicit := rfl
  -- the exponent field counts from one, the steps above the least exponent from zero
  obtain ⟨j, hj⟩ : ∃ j : Nat, e - (Format.ofModel F).leastExponent = j :=
    ⟨_, (Int.toNat_of_nonneg (by omega)).symm⟩
  have hfield : (e + F.exponentBias + F.mantissaBitsWithoutImplicit).toNat = j + 1 := by
    omega
  simp only [pack, hfield, hj, Int.toNat_natCast, Format.number, hinfinity]
  by_cases hover : 2 ^ F.exponentBits ≤ j + 1 + 1
  · have hle : (2 ^ F.exponentBits - 2) * 2 ^ F.mantissaBitsWithoutImplicit ≤
        j * 2 ^ F.mantissaBitsWithoutImplicit := Nat.mul_le_mul_right _ (by omega)
    have hstep : (2 ^ F.exponentBits - 1) * 2 ^ F.mantissaBitsWithoutImplicit =
        (2 ^ F.exponentBits - 2) * 2 ^ F.mantissaBitsWithoutImplicit +
          2 ^ F.mantissaBitsWithoutImplicit := by
      rw [← Nat.succ_mul]
      congr 1
      omega
    rw [if_pos hover, decode_packedInfinity, if_neg (by omega)]
  · have hle : (j + 2) * 2 ^ F.mantissaBitsWithoutImplicit ≤
        (2 ^ F.exponentBits - 1) * 2 ^ F.mantissaBitsWithoutImplicit :=
      Nat.mul_le_mul_right _ (by omega)
    rw [Nat.add_mul] at hle
    have hfinite : j * 2 ^ F.mantissaBitsWithoutImplicit + m <
        (2 ^ F.exponentBits - 1) * 2 ^ F.mantissaBitsWithoutImplicit := by omega
    have hnormal : m.log2 + 1 = F.mantissaBits ↔ 2 ^ F.mantissaBitsWithoutImplicit ≤ m := by
      rw [Float.Model.Format.mantissaBits, Nat.add_comm 1, Nat.add_right_cancel_iff,
        Nat.log2_eq_iff (by omega), Nat.pow_succ]
      omega
    rw [if_neg hover, if_pos hfinite]
    by_cases hn : m.log2 + 1 = F.mantissaBits
    · have hmod : m % 2 ^ F.mantissaBitsWithoutImplicit =
          m - 2 ^ F.mantissaBitsWithoutImplicit := by
        rw [Nat.mod_eq_sub_mod (hnormal.1 hn), Nat.mod_eq_of_lt (by omega)]
      rw [if_pos hn, decode_packComponents, BitVec.toNat_ofNat, BitVec.toNat_ofNat,
        Nat.mod_eq_of_lt (by omega), if_neg (by omega), hmod, Nat.succ_mul]
      congr 1
      omega
    · have hzero : j = 0 := by omega
      rw [if_neg hn, decode_packComponents, BitVec.toNat_ofNat, BitVec.toNat_ofNat, Nat.zero_mod,
        if_neg (by omega), Nat.mod_eq_of_lt (by omega), hzero]

end Pack

end NeighborSearch.Binary
