import NeighborSearch.Proofs.Binary.ExactValue

/-! Sums, differences and products of values of either sign.

What is rounded has no sign of its own: a difference and the difference the other way round have
one absolute value, whether they are rounded, overflow or are no numbers
(`abs_ofSingle_sub_comm`). An exact sum is a whole number of the least units above zero, so only
zero is rounded to zero, and a sum is the negative zero only if both of its terms are
(`eq_neg_zero_of_add`). Whole numbers that a significand has room for are rounded to themselves, so
that sums, differences and products of whole numbers are exact as long as they are not greater
(`IsInteger.add`, `IsInteger.sub`, `IsInteger.mul`). -/
namespace NeighborSearch.Binary
open Float.Model (UnpackedFloat)
open Float.Model.UnpackedFloat (Sign pack)

variable {x y : Float32} {na nb negative : Bool} {a b k : Nat}

/-! ### Negation -/

namespace Number

/-- The number without its sign. -/
def abs : Number → Number
  | .nan => .nan
  | .infinite _ => .infinite false
  | .finite _ magnitude => .finite false magnitude

end Number

theorem model_sub_eq_add_neg (F : Float.Model.Format) (u v : UnpackedFloat) :
    UnpackedFloat.sub F u v = .add F u v.neg := by
  have happly : ∀ (sign : Sign) (z : Int), (-sign).apply z = -sign.apply z := by
    intro sign z
    cases sign
    · exact (Int.neg_neg z).symm
    · rfl
  cases u with
  | finite =>
    cases v with
    | finite =>
      simp only [UnpackedFloat.sub, UnpackedFloat.neg, UnpackedFloat.add, happly]
      rfl
    | _ => rfl
  | _ => cases v <;> rfl

theorem decode_pack_ofSingle_neg (x : Float32) :
    single.decode (pack .binary32 (single.unpacked (ofSingle x).neg)).toNat = (ofSingle x).neg := by
  cases hx : ofSingle x with
  | nan => rfl
  | infinite negative => exact decode_packedInfinity (F := .binary32) _
  | finite negative magnitude =>
    exact decode_pack_unpacked (F := .binary32) (by decide) _ (magnitude_lt_infinity hx)

theorem ofSingle_neg (x : Float32) : ofSingle (-x) = (ofSingle x).neg := by
  show single.decode (pack .binary32 (UnpackedFloat.neg x.toModel.unpack)).toNat = _
  rw [unpack_toModel, neg_unpacked, decode_pack_ofSingle_neg]

theorem single_sub_eq_add_neg (x y : Float32) : x - y = x + -y := by
  show Float32.ofModel (.pack (.sub .binary32 x.toModel.unpack y.toModel.unpack)) =
    Float32.ofModel (.pack (.add .binary32 x.toModel.unpack (-y).toModel.unpack))
  rw [model_sub_eq_add_neg, unpack_toModel y, unpack_toModel (-y), ofSingle_neg, neg_unpacked]

theorem place?_neg {p : Int} (h : place? x = some p) : place? (-x) = some (-p) := by
  rcases eq_of_place? h with ⟨negative, hx, rfl⟩ | ⟨negative, magnitude, hx, -, rfl⟩
  · rw [place?, ofSingle_neg, hx]
    cases negative <;> rfl
  · rw [place?, ofSingle_neg, hx]
    cases negative
    · rfl
    · exact congrArg some (Int.neg_neg _).symm

theorem exactValue?_neg {u : ℚ} (h : exactValue? x = some u) : exactValue? (-x) = some (-u) := by
  obtain ⟨na, a, ha, rfl⟩ := exactValue?_eq_some_iff.1 h
  refine exactValue?_eq_some_iff.2 ⟨!na, a, ?_, Format.signedValue_not single na a⟩
  rw [ofSingle_neg, ha]
  rfl

theorem roundedFrom_sub {u v : ℚ} (hx : exactValue? x = some u) (hy : exactValue? y = some v) :
    RoundedFrom (u - v) (x - y) := by
  rw [single_sub_eq_add_neg, sub_eq_add_neg]
  exact roundedFrom_add hx (exactValue?_neg hy)

/-! ### Differences the other way round -/

theorem abs_number (negative : Bool) (k : Nat) :
    (single.number negative k).abs = single.number false k := by
  rw [Format.number, Format.number]
  split <;> rfl

theorem Number.add?_neg_comm (p q : Number) :
    (p.add? q.neg).map Number.abs = (q.add? p.neg).map Number.abs := by
  cases p with
  | infinite m =>
    cases q with
    | infinite n => cases m <;> cases n <;> rfl
    | _ => rfl
  | _ => cases q <;> rfl

theorem Number.eq_of_neg_eq_finite {p : Number} (h : p.neg = .finite negative k) :
    p = .finite (!negative) k := by
  cases p <;> cases h
  rw [Bool.not_not]

/-- A difference has the same absolute value the other way round, or is no number either way. -/
theorem abs_ofSingle_sub_comm (x y : Float32) :
    (ofSingle (x - y)).abs = (ofSingle (y - x)).abs := by
  rw [single_sub_eq_add_neg, single_sub_eq_add_neg]
  have hcomm := Number.add?_neg_comm (ofSingle y) (ofSingle x)
  rw [← ofSingle_neg, ← ofSingle_neg] at hcomm
  cases hsum : (ofSingle x).add? (ofSingle (-y)) with
  | some n =>
    rw [hsum] at hcomm
    obtain ⟨n', hsum', habs⟩ := Option.map_eq_some_iff.1 hcomm
    rw [ofSingle_add_of_add? hsum, ofSingle_add_of_add? hsum', habs]
  | none =>
    obtain ⟨⟨na, a, hx⟩, nb, b, hy⟩ := Number.add?_eq_none hsum
    have hx' : ofSingle (-x) = .finite (!na) a := by
      rw [ofSingle_neg, hx]
      rfl
    have hy' : ofSingle y = .finite (!nb) b := by
      rw [ofSingle_neg] at hy
      exact Number.eq_of_neg_eq_finite hy
    have hs : single.signedValue (!nb) b + single.signedValue (!na) a =
        -(single.signedValue na a + single.signedValue nb b) := by
      rw [Format.signedValue_not, Format.signedValue_not]
      ring
    obtain ⟨_, k, hk, -, hxy⟩ := ofSingle_add_finite hx hy rfl
    obtain ⟨_, k', hk', -, hyx⟩ := ofSingle_add_finite hy' hx' hs
    rw [abs_neg] at hk'
    rw [hxy, hyx, abs_number, abs_number, hk.unique hk']

/-! ### Products -/

theorem model_mul_comm (F : Float.Model.Format) (u v : UnpackedFloat) :
    UnpackedFloat.mul F u v = .mul F v u := by
  have hsign : ∀ sign sign' : Sign, sign * sign' = sign' * sign := by
    intro sign sign'
    cases sign <;> cases sign' <;> rfl
  cases u with
  | notANumber => cases v <;> rfl
  | infinity sign =>
    cases v with
    | infinity sign' | finite sign' => exact congrArg UnpackedFloat.infinity (hsign sign sign')
    | _ => rfl
  | zero sign =>
    cases v with
    | zero sign' | finite sign' => exact congrArg UnpackedFloat.zero (hsign sign sign')
    | _ => rfl
  | finite sign m e =>
    cases v with
    | notANumber => rfl
    | infinity sign' => exact congrArg UnpackedFloat.infinity (hsign sign sign')
    | zero sign' => exact congrArg UnpackedFloat.zero (hsign sign sign')
    | finite sign' m' e' =>
      rw [UnpackedFloat.mul, UnpackedFloat.mul, hsign, Nat.mul_comm, Int.add_comm]

theorem single_mul_comm (x y : Float32) : x * y = y * x := by
  show Float32.ofModel (.pack (.mul .binary32 x.toModel.unpack y.toModel.unpack)) = _
  rw [model_mul_comm]
  rfl

theorem model_mul_self_abs (F : Float.Model.Format) (f : Format) (n : Number) :
    UnpackedFloat.mul F (f.unpacked n) (f.unpacked n) =
      .mul F (f.unpacked n.abs) (f.unpacked n.abs) := by
  cases n with
  | nan => rfl
  | infinite negative => cases negative <;> rfl
  | finite negative magnitude =>
    simp only [Number.abs, Format.unpacked]
    split <;> cases negative <;> rfl

/-- A square does not know the sign. -/
theorem mul_self_of_abs_eq (h : (ofSingle x).abs = (ofSingle y).abs) : x * x = y * y := by
  show Float32.ofModel (.pack (.mul .binary32 x.toModel.unpack x.toModel.unpack)) =
    Float32.ofModel (.pack (.mul .binary32 y.toModel.unpack y.toModel.unpack))
  rw [unpack_toModel, unpack_toModel, model_mul_self_abs, h, ← model_mul_self_abs]

/-! ### The negative zero -/

/-- Every value is a whole number of the least units. -/
theorem Format.exists_units (f : Format) (negative : Bool) (k : Nat) :
    ∃ z : Int, f.signedValue negative k = z * 2 ^ f.leastExponent := by
  obtain ⟨j, m, rfl, hj, hm⟩ := f.exists_canonical k
  have hvalue : f.value (j * 2 ^ f.fractionBits + m) = (m * 2 ^ j : Nat) * 2 ^ f.leastExponent := by
    rw [value_canonical hj hm.le, zpow_add₀ two_ne_zero, zpow_natCast]
    push_cast
    ring
  cases negative with
  | false => exact ⟨(m * 2 ^ j : Nat), hvalue⟩
  | true =>
    refine ⟨-(m * 2 ^ j : Nat), ?_⟩
    rw [signedValue, if_pos rfl, hvalue]
    push_cast
    ring

/-- No whole number of least units but zero is rounded to zero. -/
theorem Format.eq_zero_of_rounds_zero {f : Format} {z : Int}
    (h : f.Rounds |(z : ℚ) * 2 ^ f.leastExponent| 0) : z = 0 := by
  have hunit : (0 : ℚ) < 2 ^ f.leastExponent := zpow_pos two_pos _
  have hexponent := exponent_canonical (f := f) (j := 0) (m := 0) (.inl rfl) (by positivity)
  have hle := h.le_midpoint
  rw [Nat.zero_mul, Nat.cast_zero, add_zero, add_zero] at hexponent
  rw [midpoint, value_zero, hexponent, abs_mul, abs_of_pos hunit, zero_add] at hle
  have hlt : |(z : ℚ)| < 1 := by
    rw [← mul_lt_mul_iff_of_pos_right hunit]
    linarith
  exact Int.abs_lt_one_iff.1 (by exact_mod_cast hlt)

/-- A sum is the negative zero only if both terms are. -/
theorem eq_neg_zero_of_add (h : ofSingle (x + y) = .finite true 0) :
    ofSingle x = .finite true 0 ∧ ofSingle y = .finite true 0 := by
  obtain ⟨⟨na, a, hx⟩, nb, b, hy⟩ := exists_finite_of_add h
  obtain ⟨negative, k, hk, hsign, hsum⟩ := ofSingle_add_finite hx hy rfl
  obtain ⟨rfl, rfl⟩ : negative = true ∧ k = 0 := by
    rw [h, Format.number] at hsum
    split at hsum
    · cases hsum
      exact ⟨rfl, rfl⟩
    · cases hsum
  obtain ⟨z, hz⟩ := single.exists_units na a
  obtain ⟨z', hz'⟩ := single.exists_units nb b
  have hzero : single.signedValue na a + single.signedValue nb b = 0 := by
    rw [hz, hz', ← add_mul, ← Int.cast_add] at hk ⊢
    rw [Format.eq_zero_of_rounds_zero hk, Int.cast_zero, zero_mul]
  rw [hzero] at hsign
  obtain ⟨rfl, rfl⟩ := (hsign.1 rfl).resolve_left (lt_irrefl 0)
  have heq : ∀ {c}, 0 ≤ single.signedValue true c → c = 0 := by
    intro c hc
    by_contra hne
    exact absurd ((Format.signedValue_neg_iff hne).2 rfl) (not_lt.2 hc)
  have ha := single.signedValue_nonpos a
  have hb := single.signedValue_nonpos b
  rw [hx, hy, heq (c := a) (by linarith), heq (c := b) (by linarith)]
  exact ⟨rfl, rfl⟩

/-! ### Whole numbers -/

/-- A value that is this whole number. -/
def IsInteger (x : Float32) (z : Int) : Prop := exactValue? x = some (z : ℚ)

instance (x : Float32) (z : Int) : Decidable (IsInteger x z) :=
  inferInstanceAs (Decidable (exactValue? x = some (z : ℚ)))

/-- A significand has room for a whole number up to `2 ^ 24`. -/
theorem isInteger_of_roundedFrom {z : Int} {s : ℚ} (hz : z.natAbs ≤ 2 ^ 24)
    (h : RoundedFrom s x) (hs : s = z) : IsInteger x z := by
  have hwhole : (z : ℚ) / 2 ^ 0 = z := by rw [pow_zero, div_one]
  have hexact := h.exact_div (hs.trans hwhole.symm) hz (Nat.zero_le 149)
  rwa [hwhole] at hexact

theorem isInteger_toFloat32 {w : UInt32} (hw : w.toNat ≤ 2 ^ 24) :
    IsInteger w.toFloat32 w.toNat :=
  isInteger_of_roundedFrom hw (roundedFrom_toFloat32 w) (Int.cast_natCast _).symm

namespace IsInteger
variable {m n : Int}

theorem neg (hx : IsInteger x m) : IsInteger (-x) (-m) := by
  rw [IsInteger, Int.cast_neg]
  exact exactValue?_neg hx

theorem add (hx : IsInteger x m) (hy : IsInteger y n) (h : (m + n).natAbs ≤ 2 ^ 24) :
    IsInteger (x + y) (m + n) :=
  isInteger_of_roundedFrom h (roundedFrom_add hx hy) (Int.cast_add m n).symm

theorem sub (hx : IsInteger x m) (hy : IsInteger y n) (h : (m - n).natAbs ≤ 2 ^ 24) :
    IsInteger (x - y) (m - n) :=
  isInteger_of_roundedFrom h (roundedFrom_sub hx hy) (Int.cast_sub m n).symm

theorem mul (hx : IsInteger x m) (hy : IsInteger y n) (h : (m * n).natAbs ≤ 2 ^ 24) :
    IsInteger (x * y) (m * n) :=
  isInteger_of_roundedFrom h (roundedFrom_mul hx hy) (Int.cast_mul m n).symm

end IsInteger

end NeighborSearch.Binary
