import NeighborSearch.Binary.Rounding
import NeighborSearch.Proofs.Binary.Arithmetic

/-! Double-precision arithmetic in numbers.

What the operations on doubles give, told by magnitudes: a product, a quotient or a whole number is
the value that the exact result rounds to (`ofDouble_mul`, `ofDouble_div`, `ofDouble_toFloat`), and
rounding a double to single precision gives the value that it rounds to (`roundToSingle_of_rounds`).
-/
namespace NeighborSearch.Binary
open Float.Model (UnpackedFloat)
open Float.Model.UnpackedFloat (pack)

/-- A finite number is packed to itself. -/
theorem decode_pack_unpacked {F : Float.Model.Format} (hF : 2 ≤ F.exponentBits)
    (negative : Bool) {k : Nat} (hk : k < (Format.ofModel F).infinity) :
    (Format.ofModel F).decode
      (pack F ((Format.ofModel F).unpacked (.finite negative k))).toNat =
        .finite negative k := by
  by_cases hzero : k = 0
  · rw [hzero, unpacked_zero]
    exact decode_packedZero negative
  · obtain ⟨j, m, rfl, hj, hm⟩ := (Format.ofModel F).exists_canonical k
    have hpack := decode_pack_finite hF negative
      (Format.significand_pos hzero) (by rwa [Format.significand_canonical hj hm])
      (show (Format.ofModel F).leastExponent ≤ (Format.ofModel F).exponent _ by
        rw [Format.exponent_canonical hj hm]; omega)
      (hj.imp (fun h => by rw [Format.exponent_canonical (.inl h) hm, h]; simp) fun h => by
        rwa [Format.significand_canonical hj hm])
    rw [Format.unpacked, dif_neg hzero, hpack, Format.significand_canonical hj hm,
      Format.exponent_canonical hj hm, add_sub_cancel_left, Int.toNat_natCast]
    exact if_pos hk

variable {x y : Float} {na nb : Bool} {a b : Nat}

theorem unpack_double (x : Float) : x.toModel.unpack = double.unpacked (ofDouble x) :=
  unpack_eq (F := .binary64) (by decide) x.toBits.toBitVec

theorem ofDouble_toDouble (negative : Bool) {k : Nat} (hk : k < double.infinity) :
    ofDouble (toDouble negative k) = .finite negative k := by
  have hbits : (UInt64.ofNat (double.pattern negative k)).toBitVec.toNat =
      double.pattern negative k := by
    rw [UInt64.toNat_toBitVec, UInt64.toNat_ofNat']
    exact Nat.mod_eq_of_lt (Format.pattern_lt negative hk)
  have hunpack := unpack_eq (F := .binary64) (by decide)
    (UInt64.ofNat (double.pattern negative k)).toBitVec
  have hdecode : double.decode (double.pattern negative k) = .finite negative k :=
    Format.decode_pattern negative hk
  rw [hbits] at hunpack
  show double.decode (pack .binary64 (UnpackedFloat.unpack .binary64 _)).toNat = _
  rw [hunpack]
  show double.decode (pack .binary64 (double.unpacked (double.decode _))).toNat = _
  rw [hdecode]
  exact decode_pack_unpacked (F := .binary64) (by decide) negative hk

theorem ofDouble_neg (hx : ofDouble x = .finite na a) : ofDouble (-x) = .finite (!na) a := by
  show double.decode (pack .binary64 (UnpackedFloat.neg x.toModel.unpack)).toNat = _
  rw [unpack_double, hx, neg_unpacked]
  exact decode_pack_unpacked (F := .binary64) (by decide) _ (magnitude_lt_infinity hx)

/-! A product or a quotient is computed from the unpacked numbers, and packed. -/

theorem ofDouble_mul_eq (x y : Float) :
    ofDouble (x * y) = double.decode (pack .binary64 (.mul .binary64
      (double.unpacked (ofDouble x)) (double.unpacked (ofDouble y)))).toNat := by
  rw [← unpack_double, ← unpack_double]
  rfl

theorem ofDouble_div_eq (x y : Float) :
    ofDouble (x / y) = double.decode (pack .binary64 (.div .binary64
      (double.unpacked (ofDouble x)) (double.unpacked (ofDouble y)))).toNat := by
  rw [← unpack_double, ← unpack_double]
  rfl

theorem ofDouble_mul (hx : ofDouble x = .finite na a) (hy : ofDouble y = .finite nb b) :
    ∃ k, double.Rounds (double.value a * double.value b) k ∧
      ofDouble (x * y) = double.number (na ^^ nb) k := by
  rw [ofDouble_mul_eq, hx, hy]
  exact decode_mul (F := .binary64) (by decide) na nb a b

theorem ofDouble_div (hx : ofDouble x = .finite na a) (hy : ofDouble y = .finite nb b)
    (hb : b ≠ 0) : ∃ k, double.Rounds (double.value a / double.value b) k ∧
      ofDouble (x / y) = double.number (na ^^ nb) k := by
  rw [ofDouble_div_eq, hx, hy]
  exact decode_div (F := .binary64) (by decide) na nb a b hb

/-- A whole number is rounded once, however great it is. -/
theorem decode_ofNat {F : Float.Model.Format} (hF : 2 ≤ F.exponentBits) (n : Nat) :
    ∃ k, (Format.ofModel F).Rounds n k ∧
      (Format.ofModel F).decode (pack F (.ofNat F n)).toNat =
        (Format.ofModel F).number false k := by
  rcases Nat.eq_zero_or_pos n with rfl | hpos
  · exact decode_zero false Nat.cast_zero
  · have h := decode_round hF false hpos 0
    have hnormalize : UnpackedFloat.ofNat F n = .round F .positive n 0 := by
      rw [UnpackedFloat.ofNat, UnpackedFloat.ofInt, UnpackedFloat.normalize,
        Int.compare_eq_gt.2 (by omega)]
      rfl
    rw [zpow_zero, mul_one] at h
    rw [hnormalize]
    exact h

theorem ofDouble_toFloat (n : UInt64) :
    ∃ k, double.Rounds n.toNat k ∧ ofDouble n.toFloat = double.number false k :=
  decode_ofNat (F := .binary64) (by decide) n.toNat

theorem isInf_iff : x.isInf = true ↔ ∃ negative, ofDouble x = .infinite negative := by
  show x.toModel.unpack.isInf = true ↔ _
  rw [unpack_double]
  cases ofDouble x with
  | nan => simp [Format.unpacked, UnpackedFloat.isInf]
  | infinite negative => simp [Format.unpacked, UnpackedFloat.isInf]
  | finite negative k =>
    by_cases hzero : k = 0 <;> simp [Format.unpacked, UnpackedFloat.isInf, hzero]

/-! ### Close numbers -/

/-- The two numbers are as far apart as so many roundings may bring them. -/
structure Close (roundings : Nat) (x y : ℚ) : Prop where
  left : x * (1 - roundings / 2 ^ 53) ≤ y
  right : y * (1 - roundings / 2 ^ 53) ≤ x

namespace Close
variable {x y z : ℚ}

theorem symm {n : Nat} (h : Close n x y) : Close n y x := ⟨h.right, h.left⟩

theorem mul_right {n : Nat} (h : Close n x y) (hz : 0 ≤ z) : Close n (x * z) (y * z) := by
  have hleft := mul_le_mul_of_nonneg_right h.left hz
  have hright := mul_le_mul_of_nonneg_right h.right hz
  exact ⟨by linarith, by linarith⟩

/-- What lies between two close numbers is close to either of them. -/
theorem of_le_left {n : Nat} (h : Close n x z) (hy : 0 ≤ y) (hxy : x ≤ y) (hyz : y ≤ z) :
    Close n y z := by
  refine ⟨(mul_le_of_le_one_right hy ?_).trans hyz, h.right.trans hxy⟩
  have : (0 : ℚ) ≤ n / 2 ^ 53 := by positivity
  linarith

theorem of_le_right (h : Close 2 x z) (hx : 0 ≤ x) (hxy : x ≤ y) (hyz : y ≤ z) : Close 2 x y := by
  have hright := h.right
  push_cast at hright
  constructor <;> push_cast <;> linarith

/-- What is rounded twice. -/
theorem trans (hxy : Close 1 x y) (hyz : Close 1 y z) (hx : 0 ≤ x) (hz : 0 ≤ z) : Close 2 x z := by
  obtain ⟨hxy, hyx⟩ := hxy
  obtain ⟨hyz, hzy⟩ := hyz
  push_cast at *
  constructor <;> push_cast <;> linarith

end Close

/-! ### Doubles that are neither tiny nor infinite -/

theorem leastExponent_double : double.leastExponent = -1074 := rfl

theorem value_infinity_double : double.value double.infinity = 2 ^ (1024 : Int) := by
  have hvalue := Format.value_canonical (f := double) (j := 2046) (m := 2 ^ double.fractionBits)
    (.inr le_rfl) (by decide)
  have hinfinity : double.infinity = 2046 * 2 ^ double.fractionBits + 2 ^ double.fractionBits := rfl
  rw [hinfinity, hvalue, leastExponent_double, Nat.cast_pow, Nat.cast_two, ← zpow_natCast,
    ← zpow_add₀ two_ne_zero]
  rfl

theorem lt_infinity_double {x : ℚ} {k : Nat} (h : double.Rounds x k) (hx : x ≤ 2 ^ (900 : Int)) :
    k < double.infinity := by
  obtain ⟨l, hl⟩ := double.exists_value (m := 1) (by decide)
    (show double.leastExponent ≤ 900 by rw [leastExponent_double]; decide)
  rw [Nat.cast_one, one_mul] at hl
  refine (h.mono (double.rounds_value l) (hl ▸ hx)).trans_lt ?_
  rw [← double.value_strictMono.lt_iff_lt, hl, value_infinity_double]
  exact zpow_lt_zpow_right₀ (by norm_num) (by decide)

theorem close_double {x : ℚ} {k : Nat} (h : double.Rounds x k) (hx : (2 : ℚ) ^ (-1022 : Int) ≤ x) :
    Close 1 (double.value k) x := by
  have hvalue := Format.value_canonical (f := double) (j := 0) (m := 2 ^ double.fractionBits)
    (.inr le_rfl) (by decide)
  rw [leastExponent_double, Nat.zero_mul, Nat.zero_add, Nat.cast_pow, Nat.cast_two, ← zpow_natCast,
    ← zpow_add₀ two_ne_zero] at hvalue
  have herror : |double.value k - x| ≤ double.value k / 2 ^ 53 :=
    h.abs_sub_le_value (hvalue.trans_le hx)
  have hpos : 0 < x := (zpow_pos two_pos _).trans_le hx
  rw [abs_le] at herror
  constructor <;> push_cast <;> linarith

/-- A whole number with no more bits than a significand is a value. -/
theorem exact_of_rounds {w k : Nat} (hw : w < 2 ^ 53) (h : double.Rounds w k) :
    double.number false k = .finite false k ∧ double.value k = w := by
  obtain ⟨l, hl⟩ := double.exists_value (m := w) (hw.le.trans (by decide)) (e := 0)
    (by rw [leastExponent_double]; decide)
  rw [zpow_zero, mul_one] at hl
  have hfinite : k < double.infinity := by
    refine lt_infinity_double h ?_
    calc (w : ℚ) ≤ 2 ^ 53 := by exact_mod_cast hw.le
      _ = 2 ^ (53 : Int) := by norm_num
      _ ≤ 2 ^ (900 : Int) := zpow_le_zpow_right₀ (by norm_num) (by decide)
  refine ⟨by rw [Format.number, if_pos hfinite], ?_⟩
  rw [← hl] at h ⊢
  rw [h.unique (double.rounds_value l)]

theorem ofDouble_toFloat_exact {w : Nat} (hw : w < 2 ^ 53) :
    ∃ a, ofDouble (UInt64.ofNat w).toFloat = .finite false a ∧ double.value a = w := by
  obtain ⟨a, ha, hfloat⟩ := ofDouble_toFloat (UInt64.ofNat w)
  rw [UInt64.toNat_ofNat', Nat.mod_eq_of_lt (hw.trans (by decide))] at ha
  obtain ⟨hfinite, hvalue⟩ := exact_of_rounds hw ha
  exact ⟨a, hfloat.trans hfinite, hvalue⟩

/-! ### Rounding to single precision -/

theorem Format.nearest_value {f g : Format} (hf : 0 < f.fractionBits) {k : Nat}
    (h : f.Rounds (g.value a) k) : g.convert f a = min k f.infinity := by
  rw [g.value_eq_div] at h
  exact Format.nearest_of_rounds hf (Nat.two_pow_pos _) h

theorem roundToSingle_of_rounds {k : Nat} (hx : ofDouble x = .finite na a)
    (h : single.Rounds (double.value a) k) (hk : k < single.infinity) :
    roundToSingle x = toSingle na k := by
  have hconvert := Format.nearest_value (by decide) h
  rw [Nat.min_eq_left hk.le] at hconvert
  rw [roundToSingle, hx]
  exact congrArg (toSingle na) hconvert

end NeighborSearch.Binary
