import NeighborSearch.Proofs.Binary.DoubleOrder
import NeighborSearch.Proofs.Binary.SignedSum

/-! Double-precision arithmetic below a power of two.

Doubles with a clear sign that are at most some power of two (`Bounded`) stay so, with other powers,
under all operations that statistics are made of. A sum of them does not even grow with the number
of its terms: once it is `2 ^ 53` times as great as a term may be, a term is no more than half a
unit of its last bit, and is rounded away (`Bounded.add_small`). -/
namespace NeighborSearch.Binary
open Float.Model (UnpackedFloat)
open Float.Model.UnpackedFloat (pack)

variable {x y : Float} {na nb : Bool} {a b k m n : Nat}

/-! ### Sums, differences and roots -/

theorem ofDouble_add (hx : ofDouble x = .finite na a) (hy : ofDouble y = .finite nb b) {s : ℚ}
    (hs : double.signedValue na a + double.signedValue nb b = s) :
    ∃ negative k, double.Rounds |s| k ∧ (negative = true ↔ s < 0 ∨ na = true ∧ nb = true) ∧
      ofDouble (x + y) = double.number negative k := by
  have h := decode_add (F := .binary64) (by decide) (magnitude_lt_infinity hx)
    (magnitude_lt_infinity hy) hs
  show ∃ negative k, _ ∧ _ ∧ double.decode (pack .binary64
    (.add _ x.toModel.unpack y.toModel.unpack)).toNat = _
  rw [unpack_double, unpack_double, hx, hy]
  exact h

theorem double_sub_eq_add_neg (x : Float) (hy : ofDouble y = .finite nb b) : x - y = x + -y := by
  show Float.ofModel (.pack (.sub .binary64 x.toModel.unpack y.toModel.unpack)) =
    Float.ofModel (.pack (.add .binary64 x.toModel.unpack (-y).toModel.unpack))
  rw [model_sub_eq_add_neg, unpack_double y, unpack_double (-y), ofDouble_neg hy, hy, neg_unpacked]
  rfl

/-- Sums of numbers that are not negative. -/
theorem ofDouble_add_nonneg (hx : ofDouble x = .finite false a)
    (hy : ofDouble y = .finite false b) :
    ∃ k, double.Rounds (double.value a + double.value b) k ∧
      ofDouble (x + y) = double.number false k := by
  have hsum := add_nonneg (double.value_nonneg a) (double.value_nonneg b)
  obtain ⟨negative, k, hk, hsign, h⟩ := ofDouble_add hx hy rfl
  have hs : double.signedValue false a + double.signedValue false b =
      double.value a + double.value b := rfl
  rw [hs] at hk hsign
  have hpositive : negative = false := by
    rw [← Bool.not_eq_true, hsign]
    simp [hsum]
  rw [abs_of_nonneg hsum] at hk
  exact ⟨k, hk, hpositive ▸ h⟩

theorem ofDouble_sqrt (hx : ofDouble x = .finite false a) :
    ∃ k r, 0 ≤ r ∧ r ^ 2 ≤ 2 * double.value a ∧ double.Rounds r k ∧
      ofDouble x.sqrt = double.number false k := by
  show ∃ k r, _ ∧ _ ∧ _ ∧ double.decode (pack .binary64 (.sqrt .binary64 x.toModel.unpack)).toNat = _
  rw [unpack_double, hx]
  by_cases hzero : a = 0
  · refine ⟨0, 0, le_rfl, ?_, ?_, ?_⟩
    · rw [hzero, double.value_zero, zero_pow two_ne_zero, mul_zero]
    · simpa [double.value_zero] using double.rounds_value 0
    · rw [hzero, unpacked_zero]
      exact (decode_packedZero (F := .binary64) false).trans
        (number_zero (F := .binary64) false).symm
  · obtain ⟨k, r, hr, hclose, hk, hdecode⟩ := decode_sqrt (F := .binary64) (by decide)
      (show double.leastExponent + 2 * 52 ≤ 0 by decide) hzero
    have hclose' : |r ^ 2 - double.value a| ≤ double.value a / 2 ^ 53 := hclose
    have hvalue := double.value_nonneg a
    rw [abs_le] at hclose'
    exact ⟨k, r, hr, by linarith, hk, hdecode⟩

/-! ### Powers of two -/

/-- The magnitude of `2 ^ n`. -/
def power (n : Nat) : Nat := (n + 1022) * 2 ^ double.fractionBits + 2 ^ double.fractionBits

theorem value_power (n : Nat) : double.value (power n) = 2 ^ n := by
  have hvalue := Format.value_canonical (f := double) (j := n + 1022)
    (m := 2 ^ double.fractionBits) (.inr le_rfl) (by omega)
  have hexponent : (double.fractionBits : Int) + (double.leastExponent + (n + 1022 : Nat)) = n := by
    rw [leastExponent_double, show double.fractionBits = 52 from rfl]
    omega
  rw [Nat.cast_pow, Nat.cast_two, ← zpow_natCast, ← zpow_add₀ two_ne_zero, hexponent,
    zpow_natCast] at hvalue
  exact hvalue

/-- Half a unit of the last bit beyond `2 ^ n`. -/
theorem midpoint_power (n : Nat) : double.midpoint (power n) = 2 ^ n + 2 ^ n / 2 ^ 53 := by
  have hpos := Nat.two_pow_pos double.fractionBits
  have hexponent := Format.exponent_canonical (f := double) (j := n + 1022)
    (m := 2 ^ double.fractionBits) (.inr le_rfl) (by omega)
  have hsteps : double.leastExponent + (n + 1022 : Nat) = (n : Int) - 52 := by
    rw [leastExponent_double]
    omega
  rw [hsteps] at hexponent
  have hunit : (2 : ℚ) ^ ((n : Int) - 52) = 2 ^ n / 2 ^ 52 := by
    rw [zpow_sub₀ two_ne_zero, zpow_natCast]
    norm_num
  have hmidpoint : double.midpoint (power n) = 2 ^ n + 2 ^ n / 2 ^ 52 / 2 := by
    rw [Format.midpoint, value_power, ← hunit, ← hexponent]
    rfl
  rw [hmidpoint]
  ring

theorem power_even (n : Nat) : power n % 2 = 0 := by
  rw [power]
  show ((n + 1022) * 2 ^ 52 + 2 ^ 52) % 2 = 0
  omega

theorem power_lt_infinity (hn : n ≤ 1023) : power n < double.infinity := by
  show (n + 1022) * 2 ^ 52 + 2 ^ 52 < 2047 * 2 ^ 52
  omega

/-- What is no more than half a unit beyond `2 ^ n` is not rounded beyond it. -/
theorem Format.Rounds.le_power {q : ℚ} (h : double.Rounds q k) (hq : q ≤ 2 ^ n + 2 ^ n / 2 ^ 53) :
    k ≤ power n := by
  have hmidpoint : double.Rounds (double.midpoint (power n)) (power n) :=
    ⟨fun _ hj => .inl (double.midpoint_strictMono hj), .inr ⟨rfl, power_even n⟩⟩
  exact h.mono hmidpoint (midpoint_power n ▸ hq)

/-! ### Whole numbers -/

/-- A number of any size, infinite beyond the greatest value. -/
theorem ofDouble_ofNat (n : Nat) :
    ∃ k, double.Rounds n k ∧ ofDouble (Float.ofNat n) = double.number false k := by
  show ∃ k, _ ∧ ofDouble (Float.ofScientific n false 0) = _
  rw [Float.ofScientific]
  split
  · rename_i h
    obtain ⟨a, ha, hvalue⟩ := ofDouble_toFloat_exact h.1
    have hone : ofDouble Float.exactlyRepresentablePowersOfTen[0] = .finite false (power 0) := by
      decide +kernel
    obtain ⟨k, hk, hproduct⟩ := ofDouble_mul ha hone
    rw [value_power, pow_zero, mul_one, hvalue] at hk
    exact ⟨k, hk, hproduct⟩
  · rename_i h
    have hn : 0 < n := Nat.pos_of_ne_zero fun hzero => h (by rw [hzero]; decide)
    -- greater numbers are taken with a significand's bits behind the point
    have hmodel : UnpackedFloat.ofScientific .binary64 n 0 =
        .roundWithAccuracy .binary64 .positive (n <<< 53) (-53) .exact := by
      have hreach : (0 : Int) ≤ 2 ^ Float.Model.Format.binary64.exponentBits + n.log2 := by
        positivity
      rw [UnpackedFloat.ofScientific, dif_neg hn.ne', if_neg (by decide), if_neg (by omega),
        if_pos le_rfl, ← Nat.mul_one (n <<< 53)]
      rfl
    have htarget : (-53 : Int) ≤ Float.Model.Format.binary64.targetExponent
        (Float.Model.totalExponent (n <<< 53) (-53)) := by
      rw [targetExponent_eq, log2_shiftLeft hn]
      show _ ≤ max ((n.log2 + 53 : Nat) + (-53) - (52 : Int)) _
      omega
    have hround := decode_roundWithAccuracy (F := .binary64) (by decide) false
      (Represents.exact (n <<< 53)) htarget
    have hvalue : ((n <<< 53 : Nat) : ℚ) * 2 ^ (-53 : Int) = n := by
      rw [Nat.shiftLeft_eq, Nat.cast_mul, mul_assoc]
      norm_num
    rw [hvalue] at hround
    show ∃ k, _ ∧ double.decode (pack .binary64 (.ofScientific .binary64 n 0)).toNat = _
    rw [hmodel]
    exact hround

theorem ofDouble_ofNat_exact (hn : n < 2 ^ 53) :
    ∃ k, ofDouble (Float.ofNat n) = .finite false k ∧ double.value k = n := by
  obtain ⟨k, hk, h⟩ := ofDouble_ofNat n
  obtain ⟨hfinite, hvalue⟩ := exact_of_rounds hn hk
  exact ⟨k, h.trans hfinite, hvalue⟩

/-! ### Bounds -/

/-- A number with a clear sign that is at most `2 ^ n`. -/
def Bounded (n : Nat) (x : Float) : Prop :=
  ∃ k, ofDouble x = .finite false k ∧ double.value k ≤ 2 ^ n

/-- A number that is at least one; it may be infinite. -/
def AtLeastOne (x : Float) : Prop :=
  ∃ k, ofDouble x = double.number false k ∧ 1 ≤ double.value k

theorem value_le_iff : double.value k ≤ 2 ^ n ↔ k ≤ power n := by
  rw [← value_power, double.value_strictMono.le_iff_le]

theorem one_le_value_iff : 1 ≤ double.value k ↔ power 0 ≤ k := by
  rw [← double.value_strictMono.le_iff_le, value_power, pow_zero]

theorem bounded_of_magnitude (hx : ofDouble x = .finite false k) (hk : k ≤ power n) :
    Bounded n x :=
  ⟨k, hx, value_le_iff.2 hk⟩

theorem bounded_zero (n : Nat) : Bounded n 0.0 :=
  bounded_of_magnitude (k := 0) (by decide +kernel) (Nat.zero_le _)

theorem atLeastOne_ofNat (hn : 0 < n) : AtLeastOne (Float.ofNat n) := by
  obtain ⟨k, hk, h⟩ := ofDouble_ofNat n
  have hone := double.rounds_value (power 0)
  rw [value_power, pow_zero] at hone
  exact ⟨k, h, one_le_value_iff.2 (hone.mono hk (by exact_mod_cast hn))⟩

/-- A rounded number keeps a bound that is a power of two, even if it goes beyond it by half a
unit. -/
theorem bounded_of_rounds {q : ℚ} (hn : n ≤ 1023) (hx : ofDouble x = double.number false k)
    (hk : double.Rounds q k) (hq : q ≤ 2 ^ n + 2 ^ n / 2 ^ 53) : Bounded n x := by
  have hle := hk.le_power hq
  refine bounded_of_magnitude ?_ hle
  rw [hx, Format.number, if_pos (hle.trans_lt (power_lt_infinity hn))]

theorem le_half_unit_above (n : Nat) {q : ℚ} (hq : q ≤ 2 ^ n) : q ≤ 2 ^ n + 2 ^ n / 2 ^ 53 :=
  hq.trans (le_add_of_nonneg_right (by positivity))

namespace Bounded

theorem mono (h : Bounded m x) (hmn : m ≤ n) : Bounded n x := by
  obtain ⟨k, hk, hle⟩ := h
  exact ⟨k, hk, hle.trans (pow_le_pow_right₀ one_le_two hmn)⟩

theorem isFinite (h : Bounded n x) : x.isFinite = true := by
  obtain ⟨k, hk, -⟩ := h
  exact double_isFinite_iff.2 ⟨_, _, hk⟩

theorem toBits_lt (h : Bounded n x) : x.toBits < 0x8000000000000000 := by
  obtain ⟨k, hk, -⟩ := h
  have hclear : (double.decode x.toBits.toNat).isNegative = false := by
    show (ofDouble x).isNegative = false
    rw [hk]
    rfl
  refine (Format.lt_signBit_of_decode hclear).elim (fun hnan => ?_) fun hlt => ?_
  · cases hk.symm.trans hnan
  · exact UInt64.lt_iff_toNat_lt.2 hlt

/-- The sum of two numbers. -/
theorem add (hx : Bounded n x) (hy : Bounded n y) (hn : n < 1023) : Bounded (n + 1) (x + y) := by
  obtain ⟨a, ha, hale⟩ := hx
  obtain ⟨b, hb, hble⟩ := hy
  obtain ⟨k, hk, hsum⟩ := ofDouble_add_nonneg ha hb
  refine bounded_of_rounds hn hsum hk (le_half_unit_above _ ?_)
  rw [pow_succ]
  linarith

/-- A number that is so much smaller than the bound of a sum does not bring the sum beyond it. -/
theorem add_small (hx : Bounded (n + 53) x) (hy : Bounded n y) (hn : n + 53 ≤ 1023) :
    Bounded (n + 53) (x + y) := by
  obtain ⟨a, ha, hale⟩ := hx
  obtain ⟨b, hb, hble⟩ := hy
  obtain ⟨k, hk, hsum⟩ := ofDouble_add_nonneg ha hb
  refine bounded_of_rounds hn hsum hk ?_
  have hhalf : (2 : ℚ) ^ (n + 53) / 2 ^ 53 = 2 ^ n := by
    rw [pow_add]
    exact mul_div_cancel_right₀ _ (by positivity)
  rw [hhalf]
  exact add_le_add hale hble

/-- The negative zero is nothing in a sum. -/
theorem neg_zero_add (hx : Bounded n x) (hn : n ≤ 1023) : Bounded n (-0.0 + x) := by
  obtain ⟨a, ha, hle⟩ := hx
  have hvalue := double.value_nonneg a
  have hzero : ofDouble (-0.0) = .finite true 0 := by decide +kernel
  have hs : double.signedValue true 0 + double.signedValue false a = double.value a := by
    rw [Format.signedValue_zero, zero_add]
    rfl
  obtain ⟨negative, k, hk, hsign, hsum⟩ := ofDouble_add hzero ha hs
  have hpositive : negative = false := by
    rw [← Bool.not_eq_true, hsign]
    simp [hvalue]
  rw [abs_of_nonneg hvalue] at hk
  exact bounded_of_rounds hn (hpositive ▸ hsum) hk (le_half_unit_above n hle)

theorem mul (hx : Bounded m x) (hy : Bounded n y) (hmn : m + n ≤ 1023) :
    Bounded (m + n) (x * y) := by
  obtain ⟨a, ha, hale⟩ := hx
  obtain ⟨b, hb, hble⟩ := hy
  obtain ⟨k, hk, hproduct⟩ := ofDouble_mul ha hb
  refine bounded_of_rounds hmn hproduct hk (le_half_unit_above _ ?_)
  rw [pow_add]
  exact mul_le_mul hale hble (double.value_nonneg b) (by positivity)

theorem div (hx : Bounded n x) (hy : AtLeastOne y) (hn : n ≤ 1023) : Bounded n (x / y) := by
  obtain ⟨a, ha, hle⟩ := hx
  obtain ⟨b, hb, hone⟩ := hy
  rw [Format.number] at hb
  split at hb
  · have hne : b ≠ 0 := by
      rintro rfl
      rw [double.value_zero] at hone
      exact absurd hone (by norm_num)
    obtain ⟨k, hk, hquotient⟩ := ofDouble_div ha hb hne
    refine bounded_of_rounds hn hquotient hk (le_half_unit_above _ ?_)
    exact (div_le_self (double.value_nonneg a) hone).trans hle
  · refine bounded_of_magnitude (k := 0) ?_ (Nat.zero_le _)
    rw [ofDouble_div_eq, ha, hb, div_unpacked_infinite]
    exact decode_packedZero (F := .binary64) false

/-- The square of a difference. -/
theorem sub_mul_self (hx : Bounded n x) (hy : Bounded n y) (hn : n + n ≤ 1023) :
    Bounded (n + n) ((x - y) * (x - y)) := by
  obtain ⟨a, ha, hale⟩ := hx
  obtain ⟨b, hb, hble⟩ := hy
  have hva := double.value_nonneg a
  have hvb := double.value_nonneg b
  obtain ⟨negative, k, hk, -, hdifference⟩ := ofDouble_add ha (ofDouble_neg hb) rfl
  have hs : double.signedValue false a + double.signedValue (!false) b =
      double.value a - double.value b := (sub_eq_add_neg _ _).symm
  have hle : |double.value a - double.value b| ≤ 2 ^ n := by
    rw [abs_le]
    constructor <;> linarith
  rw [hs] at hk
  rw [← double_sub_eq_add_neg x hb] at hdifference
  -- the difference is finite, of either sign, and its square has none
  have hpower := hk.le_power (le_half_unit_above n hle)
  rw [Format.number, if_pos (hpower.trans_lt (power_lt_infinity (by omega)))] at hdifference
  obtain ⟨l, hl, hsquare⟩ := ofDouble_mul hdifference hdifference
  have hvalue := value_le_iff.2 hpower
  rw [Bool.xor_self] at hsquare
  refine bounded_of_rounds hn hsquare hl (le_half_unit_above _ ?_)
  rw [pow_add]
  exact mul_le_mul hvalue hvalue (double.value_nonneg k) (by positivity)

theorem sqrt (hx : Bounded n x) (hn : n < 1023) : Bounded (n + 1) x.sqrt := by
  obtain ⟨a, ha, hle⟩ := hx
  obtain ⟨k, r, hr, hsquare, hk, hroot⟩ := ofDouble_sqrt ha
  refine bounded_of_rounds hn hroot hk (le_half_unit_above _ ?_)
  have hone : (1 : ℚ) ≤ 2 ^ (n + 1) := one_le_pow₀ one_le_two
  refine le_of_sq_le_sq ?_ (by positivity)
  calc r ^ 2 ≤ 2 * double.value a := hsquare
    _ ≤ 2 ^ (n + 1) := by
      rw [pow_succ]
      linarith
    _ ≤ (2 ^ (n + 1)) ^ 2 := le_self_pow₀ hone two_ne_zero

end Bounded

end NeighborSearch.Binary
