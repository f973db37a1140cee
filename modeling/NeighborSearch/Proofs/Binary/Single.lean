import NeighborSearch.Proofs.Binary.Sign
import NeighborSearch.Proofs.Binary.SumAndRoot

/-! Single-precision arithmetic in numbers.

What the operations on single-precision values give, told by magnitudes: a product, a quotient or a
sum is the value that the exact result rounds to (`ofSingle_mul`, `ofSingle_div`, `ofSingle_add`),
and the square of a root is near to the value that it is the root of (`ofSingle_sqrt`). Magnitudes
beyond that of infinity go on as if there were greater exponents, so that sums are told alike
whether they overflow or not.

`Near` says how far numbers are apart after some roundings. Each of them adds a part in `2 ^ 23`,
and those below the least value with a leading bit a fixed amount beside it (`Rounds.near`); the
parts of several steps multiply, and the amounts add up (`Near.trans`, `Near.add`). -/
namespace NeighborSearch.Binary
open Float.Model (UnpackedFloat)
open Float.Model.UnpackedFloat (pack)

/-! ### Near numbers -/

/-- What a rounding makes greater at most. -/
def growth : ℚ := 1 + 1 / 2 ^ 23

/-- As far apart as so many roundings may bring two numbers, and the slack. -/
structure Near (roundings : Nat) (slack x y : ℚ) : Prop where
  left : x ≤ (y + slack) * growth ^ roundings
  right : y ≤ (x + slack) * growth ^ roundings

theorem one_le_growth : 1 ≤ growth := by
  rw [growth]
  norm_num

theorem one_le_growth_pow (n : Nat) : 1 ≤ growth ^ n := one_le_pow₀ one_le_growth

theorem growth_pow_nonneg (n : Nat) : 0 ≤ growth ^ n := zero_le_one.trans (one_le_growth_pow n)

namespace Near
variable {m n : Nat} {s s' x y z x' y' : ℚ}

theorem refl (x : ℚ) : Near 0 0 x x := ⟨by simp, by simp⟩

theorem symm (h : Near n s x y) : Near n s y x := ⟨h.right, h.left⟩

theorem mono (h : Near m s x y) (hx : 0 ≤ x + s) (hy : 0 ≤ y + s) (hn : m ≤ n) (hs : s ≤ s') :
    Near n s' x y := by
  have hpow : growth ^ m ≤ growth ^ n := pow_le_pow_right₀ one_le_growth hn
  constructor
  · calc x ≤ (y + s) * growth ^ m := h.left
      _ ≤ (y + s') * growth ^ n :=
        mul_le_mul (by linarith) hpow (growth_pow_nonneg m) (by linarith)
  · calc y ≤ (x + s) * growth ^ m := h.right
      _ ≤ (x + s') * growth ^ n :=
        mul_le_mul (by linarith) hpow (growth_pow_nonneg m) (by linarith)

/-- One step after the other. -/
theorem trans (hxy : Near m s x y) (hyz : Near n s' y z) (hs : 0 ≤ s) (hs' : 0 ≤ s') :
    Near (m + n) (s + s') x z := by
  have hstep : ∀ {c d : Nat} {u v w a b : ℚ}, 0 ≤ u → w ≤ (v + u) * growth ^ c →
      v ≤ (a + b) * growth ^ d → w ≤ (a + (u + b)) * growth ^ (c + d) := by
    intro c d u v w a b hu hw hv
    have hle : u ≤ u * growth ^ d := le_mul_of_one_le_right hu (one_le_growth_pow d)
    calc w ≤ (v + u) * growth ^ c := hw
      _ ≤ ((a + b) * growth ^ d + u * growth ^ d) * growth ^ c :=
        mul_le_mul_of_nonneg_right (by linarith) (growth_pow_nonneg c)
      _ = (a + (u + b)) * growth ^ (c + d) := by ring
  constructor
  · exact hstep hs hxy.left hyz.left
  · have h := hstep hs' hyz.right hxy.right
    rwa [add_comm n m, add_comm s' s] at h

theorem add (h : Near n s x y) (h' : Near n s' x' y') : Near n (s + s') (x + x') (y + y') := by
  have hleft := add_le_add h.left h'.left
  have hright := add_le_add h.right h'.right
  constructor
  · linarith
  · linarith

theorem mul_right (h : Near n s x y) (hz : 0 ≤ z) : Near n (s * z) (x * z) (y * z) := by
  have hleft := mul_le_mul_of_nonneg_right h.left hz
  have hright := mul_le_mul_of_nonneg_right h.right hz
  constructor
  · linarith
  · linarith

/-- Parts multiply, if there is nothing beside them. -/
theorem mul (h : Near m 0 x y) (h' : Near n 0 x' y') (hx : 0 ≤ x) (hy : 0 ≤ y) (hx' : 0 ≤ x')
    (hy' : 0 ≤ y') : Near (m + n) 0 (x * x') (y * y') := by
  have hstep : ∀ {c d : Nat} {u v u' v' : ℚ}, 0 ≤ v → 0 ≤ u' → u ≤ (v + 0) * growth ^ c →
      u' ≤ (v' + 0) * growth ^ d → u * u' ≤ (v * v' + 0) * growth ^ (c + d) := by
    intro c d u v u' v' hv hu' h h'
    rw [add_zero] at h h' ⊢
    calc u * u' ≤ v * growth ^ c * (v' * growth ^ d) :=
          mul_le_mul h h' hu' (mul_nonneg hv (growth_pow_nonneg c))
      _ = v * v' * growth ^ (c + d) := by ring
  exact ⟨hstep hy hx' h.left h'.left, hstep hx hy' h.right h'.right⟩

end Near

/-! ### Rounding -/

/-- The least value above zero. -/
def tiny : ℚ := 2 ^ (-149 : Int)

theorem tiny_pos : 0 < tiny := zpow_pos two_pos _

theorem leastExponent_single : single.leastExponent = -149 := rfl

theorem value_infinity : single.value single.infinity = 2 ^ 128 := by
  have h := Format.value_canonical (f := single) (j := 254) (m := 2 ^ single.fractionBits)
    (.inr le_rfl) (by decide)
  have hfraction : single.fractionBits = 23 := rfl
  have hinfinity : single.infinity = 254 * 2 ^ 23 + 2 ^ 23 := rfl
  rw [hfraction, ← hinfinity, leastExponent_single] at h
  rw [h]
  norm_num

theorem lt_infinity_of_value {k : Nat} (h : single.value k < 2 ^ 128) : k < single.infinity := by
  rwa [← value_infinity, single.value_strictMono.lt_iff_lt] at h

theorem tiny_le_value {k : Nat} (hk : 0 < k) : tiny ≤ single.value k := by
  have hunit : tiny ≤ 2 ^ single.exponent k := by
    refine zpow_le_zpow_right₀ one_le_two ?_
    rw [Format.exponent, leastExponent_single]
    omega
  exact hunit.trans (single.unit_le_value hk)

theorem unit_le (k : Nat) : (2 : ℚ) ^ single.exponent k ≤ tiny + single.value k / 2 ^ 23 := by
  obtain ⟨j, m, rfl, hj, hm⟩ := single.exists_canonical k
  have hunit : (0 : ℚ) < 2 ^ (single.leastExponent + j) := zpow_pos two_pos _
  have htiny := tiny_pos
  rw [Format.exponent_canonical hj hm, Format.value_canonical hj hm.le]
  rcases hj with rfl | hj
  · rw [Nat.cast_zero, add_zero, leastExponent_single]
    have : (0 : ℚ) ≤ m * 2 ^ (-149 : Int) / 2 ^ 23 := by positivity
    exact le_add_of_nonneg_right this
  · have hlead : (2 : ℚ) ^ 23 ≤ m := by exact_mod_cast hj
    have hmul := mul_le_mul_of_nonneg_right hlead hunit.le
    have hdiv : (2 : ℚ) ^ (single.leastExponent + j) ≤
        m * 2 ^ (single.leastExponent + j) / 2 ^ 23 := by
      rw [le_div_iff₀ (by positivity)]
      linarith
    linarith

theorem Format.Rounds.near {x : ℚ} {k : Nat} (h : single.Rounds x k) (hx : 0 ≤ x) :
    Near 1 tiny (single.value k) x := by
  have herror := abs_le.1 (h.abs_sub_le hx)
  have hunit := unit_le k
  have hvalue := single.value_nonneg k
  have htiny := tiny_pos
  constructor
  · rw [pow_one, growth]
    linarith
  · rw [pow_one, growth]
    linarith

/-- From the least value with a leading bit on there is no slack. -/
theorem Format.Rounds.near_zero {x : ℚ} {k : Nat} (h : single.Rounds x k)
    (hx : (2 : ℚ) ^ (-126 : Int) ≤ x) : Near 1 0 (single.value k) x := by
  have hleast := Format.value_canonical (f := single) (j := 0) (m := 2 ^ single.fractionBits)
    (.inr le_rfl) (by decide)
  have hfraction : single.fractionBits = 23 := rfl
  rw [leastExponent_single, Nat.zero_mul, Nat.zero_add, hfraction] at hleast
  have herror := h.abs_sub_le_value (by rw [hfraction, hleast]; norm_num at hx ⊢; linarith)
  rw [hfraction, abs_le] at herror
  have hvalue := single.value_nonneg k
  constructor
  · rw [pow_one, growth]
    linarith
  · rw [pow_one, growth]
    linarith

/-! ### Operations -/

variable {x y : Float32} {na nb : Bool} {a b : Nat}

theorem ofSingle_mul (hx : ofSingle x = .finite na a) (hy : ofSingle y = .finite nb b) :
    ∃ k, single.Rounds (single.value a * single.value b) k ∧
      ofSingle (x * y) = single.number (na ^^ nb) k := by
  have h := decode_mul (F := .binary32) (by decide) na nb a b
  show ∃ k, _ ∧ single.decode (pack .binary32 (.mul _ x.toModel.unpack y.toModel.unpack)).toNat = _
  rw [unpack_toModel, unpack_toModel, hx, hy]
  exact h

theorem ofSingle_div (hx : ofSingle x = .finite na a) (hy : ofSingle y = .finite nb b)
    (hb : b ≠ 0) : ∃ k, single.Rounds (single.value a / single.value b) k ∧
      ofSingle (x / y) = single.number (na ^^ nb) k := by
  have h := decode_div (F := .binary32) (by decide) na nb a b hb
  show ∃ k, _ ∧ single.decode (pack .binary32 (.div _ x.toModel.unpack y.toModel.unpack)).toNat = _
  rw [unpack_toModel, unpack_toModel, hx, hy]
  exact h

/-- A finite number is nothing beside an infinity. -/
theorem ofSingle_div_infinite (hx : ofSingle x = .finite na a) (hy : ofSingle y = .infinite nb) :
    ofSingle (x / y) = .finite (na ^^ nb) 0 := by
  show single.decode (pack .binary32 (.div _ x.toModel.unpack y.toModel.unpack)).toNat = _
  rw [unpack_toModel, unpack_toModel, hx, hy, div_unpacked_infinite]
  exact decode_packedZero (F := .binary32) _

/-- The sum of two finite numbers of either sign. -/
theorem ofSingle_add_finite (hx : ofSingle x = .finite na a) (hy : ofSingle y = .finite nb b)
    {s : ℚ} (hs : single.signedValue na a + single.signedValue nb b = s) :
    ∃ negative k, single.Rounds |s| k ∧ (negative = true ↔ s < 0 ∨ na = true ∧ nb = true) ∧
      ofSingle (x + y) = single.number negative k := by
  have h := decode_add (F := .binary32) (by decide) (magnitude_lt_infinity hx)
    (magnitude_lt_infinity hy) hs
  show ∃ negative k, _ ∧ _ ∧ single.decode (pack .binary32
    (.add _ x.toModel.unpack y.toModel.unpack)).toNat = _
  rw [unpack_toModel, unpack_toModel, hx, hy]
  exact h

theorem number_of_lt (negative : Bool) (h : a < single.infinity) :
    single.number negative a = .finite negative a := if_pos h

theorem number_of_le (negative : Bool) (h : single.infinity ≤ a) :
    single.number negative a = .infinite negative := if_neg (not_lt.2 h)

/-! ### Sums that are not rounded -/

/-- The sum of two numbers, unless both are finite. -/
def Number.add? : Number → Number → Option Number
  | .finite _ _, .finite _ _ => none
  | .infinite m, .infinite n => some (if m = n then .infinite m else .nan)
  | .infinite negative, .finite _ _ | .finite _ _, .infinite negative => some (.infinite negative)
  | .nan, _ | _, .nan => some .nan

namespace Number
variable {p q : Number}

theorem add?_eq_none (h : p.add? q = none) :
    (∃ na a, p = .finite na a) ∧ ∃ nb b, q = .finite nb b := by
  cases p <;> cases q <;> cases h
  exact ⟨⟨_, _, rfl⟩, _, _, rfl⟩

theorem add?_ne_finite (p q : Number) (negative : Bool) (k : Nat) :
    p.add? q ≠ some (.finite negative k) := by
  cases p <;> cases q <;> simp [add?]
  split <;> simp

end Number

theorem add_unpacked (F : Float.Model.Format) {f : Format} {p q n : Number}
    (h : p.add? q = some n) : UnpackedFloat.add F (f.unpacked p) (f.unpacked q) = f.unpacked n := by
  cases p with
  | nan =>
    cases h
    rfl
  | infinite negative =>
    cases q with
    | nan =>
      cases h
      rfl
    | infinite negative' =>
      cases h
      cases negative <;> cases negative' <;> rfl
    | finite =>
      cases h
      simp only [Format.unpacked]
      split <;> rfl
  | finite =>
    cases q with
    | finite => cases h
    | _ =>
      cases h
      simp only [Format.unpacked]
      split <;> rfl

theorem ofSingle_add_of_add? {n : Number} (h : (ofSingle x).add? (ofSingle y) = some n) :
    ofSingle (x + y) = n := by
  show single.decode (pack .binary32 (.add .binary32 x.toModel.unpack y.toModel.unpack)).toNat = n
  rw [unpack_toModel, unpack_toModel, add_unpacked _ h]
  cases n with
  | nan => rfl
  | infinite negative => exact decode_packedInfinity (F := .binary32) negative
  | finite => exact (Number.add?_ne_finite _ _ _ _ h).elim

/-- Only finite terms have a finite sum. -/
theorem exists_finite_of_add {negative : Bool} {k : Nat}
    (h : ofSingle (x + y) = .finite negative k) :
    (∃ na a, ofSingle x = .finite na a) ∧ ∃ nb b, ofSingle y = .finite nb b := by
  cases hsum : (ofSingle x).add? (ofSingle y) with
  | none => exact Number.add?_eq_none hsum
  | some n =>
    rw [← ofSingle_add_of_add? hsum, h] at hsum
    exact (Number.add?_ne_finite _ _ _ _ hsum).elim

/-! ### Sums of numbers that are not negative -/

theorem unsigned_unpacked_number (a : Nat) :
    Unsigned (single.unpacked (single.number false a)) := by
  rw [unsigned_unpacked_iff, Format.number]
  split <;> rfl

/-- With an infinity among them, numbers that are not negative have an infinite sum. -/
theorem ofSingle_add_infinite (hx : ofSingle x = single.number false a)
    (hy : ofSingle y = single.number false b) (h : single.infinity ≤ a ∨ single.infinity ≤ b) :
    ofSingle (x + y) = .infinite false := by
  refine ofSingle_add_of_add? ?_
  rw [hx, hy]
  rcases h with h | h
  · rw [number_of_le false h, Format.number]
    split <;> rfl
  · rw [number_of_le false h, Format.number]
    split <;> rfl

/-- The sum of two numbers that are not negative, infinite or not. -/
theorem ofSingle_add (hx : ofSingle x = single.number false a)
    (hy : ofSingle y = single.number false b) :
    ∃ k, single.Rounds (single.value a + single.value b) k ∧
      ofSingle (x + y) = single.number false k := by
  have hva := single.value_nonneg a
  have hvb := single.value_nonneg b
  by_cases hfinite : a < single.infinity ∧ b < single.infinity
  · rw [number_of_lt false hfinite.1] at hx
    rw [number_of_lt false hfinite.2] at hy
    have hs : single.signedValue false a + single.signedValue false b =
        single.value a + single.value b := rfl
    obtain ⟨negative, k, hk, hsign, hsum⟩ := ofSingle_add_finite hx hy hs
    rw [abs_of_nonneg (add_nonneg hva hvb)] at hk
    have hpositive : negative = false := by
      rw [← Bool.not_eq_true, hsign]
      rintro (hneg | ⟨hneg, -⟩)
      · exact absurd hneg (not_lt.2 (add_nonneg hva hvb))
      · cases hneg
    exact ⟨k, hk, hpositive ▸ hsum⟩
  · have hinfinite : single.infinity ≤ a ∨ single.infinity ≤ b := by omega
    obtain ⟨k, hk⟩ := Format.exists_rounds (f := single) (by decide) (add_nonneg hva hvb)
    have hak := (single.rounds_value a).mono hk (by linarith)
    have hbk := (single.rounds_value b).mono hk (by linarith)
    refine ⟨k, hk, ?_⟩
    rw [ofSingle_add_infinite hx hy hinfinite, number_of_le false (by omega)]

/-- Beside the negative zero a number that is not negative is the sum. -/
theorem ofSingle_add_neg_zero (hx : ofSingle x = single.number false a) :
    ofSingle (x + -0.0) = single.number false a ∧ ofSingle (-0.0 + x) = single.number false a := by
  have hsum : ∀ {u}, Unsigned u → UnpackedFloat.add .binary32 u (.zero .negative) = u ∧
      UnpackedFloat.add .binary32 (.zero .negative) u = u := by
    intro u hu
    cases u with
    | zero =>
      cases hu
      exact ⟨rfl, rfl⟩
    | _ => exact ⟨rfl, rfl⟩
  have hself : single.decode (pack .binary32 (single.unpacked (single.number false a))).toNat =
      single.number false a := by
    rcases lt_or_ge a single.infinity with h | h
    · rw [number_of_lt false h]
      exact decode_pack_unpacked (F := .binary32) (by decide) false h
    · rw [number_of_le false h]
      exact decode_packedInfinity (F := .binary32) false
  obtain ⟨hright, hleft⟩ := hsum (unsigned_unpacked_number a)
  constructor
  · show single.decode (pack .binary32 (.add _ x.toModel.unpack _)).toNat = _
    rw [unpack_neg_zero, unpack_toModel, hx, hright, hself]
  · show single.decode (pack .binary32 (.add _ _ x.toModel.unpack)).toNat = _
    rw [unpack_neg_zero, unpack_toModel, hx, hleft, hself]

/-- The square of a root has three roundings: one for the root, which its two factors share, and one
for what stands for the exact root. -/
theorem ofSingle_sqrt (hx : ofSingle x = .finite false a) :
    ∃ k, Near 3 0 (single.value k ^ 2) (single.value a) ∧
      ofSingle x.sqrt = single.number false k := by
  show ∃ k, _ ∧ single.decode (pack .binary32 (.sqrt .binary32 x.toModel.unpack)).toNat = _
  rw [unpack_toModel, hx]
  by_cases hzero : a = 0
  · refine ⟨0, ?_, ?_⟩
    · rw [hzero, single.value_zero, zero_pow two_ne_zero]
      exact (Near.refl 0).mono (by simp) (by simp) (Nat.zero_le 3) le_rfl
    · rw [hzero, unpacked_zero]
      exact (decode_packedZero (F := .binary32) false).trans
        (number_zero (F := .binary32) false).symm
  · obtain ⟨k, y, hy, hclose, hk, hdecode⟩ := decode_sqrt (F := .binary32) (by decide)
      (show single.leastExponent + 2 * 23 ≤ 0 by decide) hzero
    have hclose' : |y ^ 2 - single.value a| ≤ single.value a / 2 ^ 24 := hclose
    have hleast := tiny_le_value (Nat.pos_of_ne_zero hzero)
    have hvalue := single.value_nonneg a
    rw [abs_le] at hclose'
    have hsquare : Near 1 0 (y ^ 2) (single.value a) := by
      constructor
      · rw [pow_one, growth]
        linarith
      · rw [pow_one, growth]
        linarith
    have hnormal : (2 : ℚ) ^ (-126 : Int) ≤ y := by
      rw [tiny] at hleast
      refine le_of_sq_le_sq ?_ hy
      norm_num at hleast hclose' ⊢
      linarith
    have hroot := hk.near_zero hnormal
    have hrootsquare := hroot.mul hroot (single.value_nonneg k) hy (single.value_nonneg k) hy
    rw [← sq, ← sq] at hrootsquare
    have htwo := hrootsquare.trans hsquare le_rfl le_rfl
    rw [add_zero] at htwo
    exact ⟨k, htwo, hdecode⟩

theorem ofSingle_sqrt_infinite (hx : ofSingle x = .infinite false) :
    ofSingle x.sqrt = .infinite false := by
  show single.decode (pack .binary32 (.sqrt .binary32 x.toModel.unpack)).toNat = _
  rw [unpack_toModel, hx]
  exact decode_packedInfinity (F := .binary32) false

end NeighborSearch.Binary
