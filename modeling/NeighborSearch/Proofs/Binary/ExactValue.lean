import NeighborSearch.Proofs.Binary.Double
import NeighborSearch.Proofs.Binary.Single

/-! Exact values and how far rounding goes.

A finite single-precision value stands for a number (`exactValue?`), and numbers of that kind are
compared by the arithmetic as they are (`exactValue_le_iff`). The sum, the product or the quotient
of two of them is what the exact result is rounded to (`RoundedFrom`): the exact result itself if it
is a value (`RoundedFrom.exact`), and else nothing beyond a value that the exact result does not go
beyond (`RoundedFrom.within`). So bounds that are values themselves hold through sums and products
however often these are rounded (`Within.add`, `Within.mul`). -/
namespace NeighborSearch.Binary

variable {x y : Float32} {u v s b c : ℚ}

/-- The exact value of a finite number. -/
def exactValue? (x : Float32) : Option ℚ :=
  match ofSingle x with
  | .finite negative k => some (single.signedValue negative k)
  | _ => none

theorem exactValue?_eq_some_iff : exactValue? x = some v ↔
    ∃ negative k, ofSingle x = .finite negative k ∧ single.signedValue negative k = v := by
  rw [exactValue?]
  cases ofSingle x <;> simp

/-! ### Order -/

theorem signedValue_le_iff (f : Format) (na nb : Bool) (a b : Nat) :
    f.signedValue na a ≤ f.signedValue nb b ↔ signed na a ≤ signed nb b := by
  have hle : ∀ m n, f.value m ≤ f.value n ↔ m ≤ n := fun m n => f.value_strictMono.le_iff_le
  have ha := f.value_nonneg a
  have hb := f.value_nonneg b
  cases na with
  | false =>
    cases nb with
    | false => exact (hle a b).trans Int.ofNat_le.symm
    | true =>
      -- only zeros are at most a number with a minus sign
      show f.value a ≤ -f.value b ↔ (a : Int) ≤ -(b : Int)
      constructor
      · intro h
        have hzero := (hle a 0).1 (f.value_zero.symm ▸ by linarith)
        have hzero' := (hle b 0).1 (f.value_zero.symm ▸ by linarith)
        omega
      · intro h
        obtain rfl : a = 0 := by omega
        obtain rfl : b = 0 := by omega
        rw [f.value_zero, neg_zero]
  | true =>
    cases nb with
    | false =>
      show -f.value a ≤ f.value b ↔ -(a : Int) ≤ (b : Int)
      constructor
      · intro _
        omega
      · intro _
        linarith
    | true =>
      show -f.value a ≤ -f.value b ↔ -(a : Int) ≤ -(b : Int)
      rw [neg_le_neg_iff, Int.neg_le_neg_iff, Int.ofNat_le]
      exact hle b a

theorem exactValue_le_iff (hx : exactValue? x = some u) (hy : exactValue? y = some v) :
    x ≤ y ↔ u ≤ v := by
  obtain ⟨na, a, ha, rfl⟩ := exactValue?_eq_some_iff.1 hx
  obtain ⟨nb, b, hb, rfl⟩ := exactValue?_eq_some_iff.1 hy
  have hplace {z : Float32} {n : Bool} {k : Nat} (hz : ofSingle z = .finite n k) :
      place? z = some (signed n k) := by
    rw [place?, hz]
    rfl
  rw [le_iff_of_place (hplace ha) (hplace hb), signedValue_le_iff]

/-! ### Rounded results -/

/-- What a number is rounded to. It has the sign of the number, and a zero has either sign. -/
def RoundedFrom (s : ℚ) (x : Float32) : Prop :=
  ∃ negative k, single.Rounds |s| k ∧ ofSingle x = single.number negative k ∧
    if negative then s ≤ 0 else 0 ≤ s

theorem roundedFrom_add (hx : exactValue? x = some u) (hy : exactValue? y = some v) :
    RoundedFrom (u + v) (x + y) := by
  obtain ⟨na, a, ha, rfl⟩ := exactValue?_eq_some_iff.1 hx
  obtain ⟨nb, b, hb, rfl⟩ := exactValue?_eq_some_iff.1 hy
  obtain ⟨negative, k, hk, hsign, hsum⟩ := ofSingle_add_finite ha hb rfl
  refine ⟨negative, k, hk, hsum, ?_⟩
  cases negative with
  | true =>
    rcases hsign.1 rfl with hlt | ⟨rfl, rfl⟩
    · exact hlt.le
    · exact add_nonpos (single.signedValue_nonpos a) (single.signedValue_nonpos b)
  | false => exact not_lt.1 fun hlt => Bool.false_ne_true (hsign.2 (.inl hlt))

theorem roundedFrom_mul (hx : exactValue? x = some u) (hy : exactValue? y = some v) :
    RoundedFrom (u * v) (x * y) := by
  obtain ⟨na, a, ha, rfl⟩ := exactValue?_eq_some_iff.1 hx
  obtain ⟨nb, b, hb, rfl⟩ := exactValue?_eq_some_iff.1 hy
  obtain ⟨k, hk, hproduct⟩ := ofSingle_mul ha hb
  have hvalue := mul_nonneg (single.value_nonneg a) (single.value_nonneg b)
  refine ⟨na ^^ nb, k, ?_, hproduct, ?_⟩
  · rwa [abs_mul, single.abs_signedValue, single.abs_signedValue]
  · rw [single.signedValue_mul]
    split
    · exact neg_nonpos.2 hvalue
    · exact hvalue

theorem roundedFrom_div (hx : exactValue? x = some u) (hy : exactValue? y = some v) (hv : v ≠ 0) :
    RoundedFrom (u / v) (x / y) := by
  obtain ⟨na, a, ha, rfl⟩ := exactValue?_eq_some_iff.1 hx
  obtain ⟨nb, b, hb, rfl⟩ := exactValue?_eq_some_iff.1 hy
  have hzero : b ≠ 0 := by
    rintro rfl
    exact hv (single.signedValue_zero nb)
  obtain ⟨k, hk, hquotient⟩ := ofSingle_div ha hb hzero
  have hvalue := div_nonneg (single.value_nonneg a) (single.value_nonneg b)
  refine ⟨na ^^ nb, k, ?_, hquotient, ?_⟩
  · rwa [abs_div, single.abs_signedValue, single.abs_signedValue]
  · rw [single.signedValue_div]
    split
    · exact neg_nonpos.2 hvalue
    · exact hvalue

theorem roundedFrom_toFloat32 (n : UInt32) : RoundedFrom n.toNat n.toFloat32 := by
  obtain ⟨k, hk, hdecode⟩ := decode_ofNat (F := .binary32) (by decide) n.toNat
  refine ⟨false, k, ?_, hdecode, Nat.cast_nonneg _⟩
  rwa [Nat.abs_cast]

/-! ### Results that are values -/

/-- A finite value that is not negative. -/
def IsValue (q : ℚ) : Prop := ∃ k < single.infinity, single.value k = q

/-- A whole number that a significand has room for, divided by a power of two. -/
theorem isValue_of_eq_div {q : ℚ} {m n : Nat} (hq : q = m / 2 ^ n) (hm : m ≤ 2 ^ 24)
    (hn : n ≤ 149) : IsValue q := by
  have hroom : m ≤ 2 * 2 ^ single.fractionBits := hm
  have hleast : single.leastExponent ≤ -(n : Int) := by
    rw [leastExponent_single]
    omega
  obtain ⟨k, hk⟩ := Format.exists_value hroom hleast
  rw [zpow_neg, zpow_natCast, ← div_eq_mul_inv, ← hq] at hk
  have hbound : (m : ℚ) ≤ 2 ^ 24 := by exact_mod_cast hm
  refine ⟨k, lt_infinity_of_value ?_, hk⟩
  rw [hk, hq]
  exact (div_le_self (Nat.cast_nonneg m) (one_le_pow₀ one_le_two)).trans_lt
    (hbound.trans_lt (by norm_num))

theorem isValue_natCast {n : Nat} (hn : n ≤ 2 ^ 24) : IsValue n :=
  isValue_of_eq_div (n := 0) (by rw [pow_zero, div_one]) hn (Nat.zero_le 149)

/-- A value is rounded to itself. -/
theorem RoundedFrom.exact (h : RoundedFrom s x) (hs : IsValue |s|) : exactValue? x = some s := by
  obtain ⟨negative, k, hk, hx, hsign⟩ := h
  obtain ⟨l, hl, hvalue⟩ := hs
  rw [← hvalue] at hk
  obtain rfl := hk.unique (single.rounds_value l)
  rw [number_of_lt negative hl] at hx
  refine exactValue?_eq_some_iff.2 ⟨negative, k, hx, ?_⟩
  cases negative with
  | true => rw [Format.signedValue, if_pos rfl, hvalue, abs_of_nonpos hsign, neg_neg]
  | false => exact hvalue.trans (abs_of_nonneg hsign)

/-- To divide a whole number by a power of two takes nothing away from its significand. -/
theorem RoundedFrom.exact_div {z : Int} {n : Nat} (h : RoundedFrom s x)
    (hs : s = (z : ℚ) / 2 ^ n) (hz : z.natAbs ≤ 2 ^ 24) (hn : n ≤ 149) :
    exactValue? x = some ((z : ℚ) / 2 ^ n) := by
  have hpower : (0 : ℚ) < 2 ^ n := pow_pos two_pos n
  rw [← hs]
  refine h.exact ?_
  rw [hs, abs_div, abs_of_pos hpower, ← Int.cast_abs, ← Nat.cast_natAbs]
  exact isValue_of_eq_div rfl hz hn

/-! ### Bounds -/

/-- A finite value whose absolute value is at most this number. -/
def Within (b : ℚ) (x : Float32) : Prop := ∃ v, exactValue? x = some v ∧ |v| ≤ b

/-- Rounding does not go beyond a value. -/
theorem RoundedFrom.within (h : RoundedFrom s x) (hb : IsValue b) (hs : |s| ≤ b) : Within b x := by
  obtain ⟨negative, k, hk, hx, -⟩ := h
  obtain ⟨l, hl, rfl⟩ := hb
  have hle : k ≤ l := hk.mono (single.rounds_value l) hs
  rw [number_of_lt negative (hle.trans_lt hl)] at hx
  refine ⟨_, exactValue?_eq_some_iff.2 ⟨negative, k, hx, rfl⟩, ?_⟩
  rw [single.abs_signedValue]
  exact single.value_strictMono.monotone hle

namespace Within

theorem mono (h : Within b x) (hbc : b ≤ c) : Within c x := by
  obtain ⟨v, hv, hle⟩ := h
  exact ⟨v, hv, hle.trans hbc⟩

theorem isFinite (h : Within b x) : x.isFinite = true := by
  obtain ⟨v, hv, -⟩ := h
  obtain ⟨negative, k, hk, -⟩ := exactValue?_eq_some_iff.1 hv
  exact isFinite_iff.2 ⟨negative, k, hk⟩

theorem le (h : Within b x) (hy : exactValue? y = some b) : x ≤ y := by
  obtain ⟨v, hv, hle⟩ := h
  exact (exactValue_le_iff hv hy).2 (abs_le.1 hle).2

theorem ge (h : Within b x) (hy : exactValue? y = some (-b)) : y ≤ x := by
  obtain ⟨v, hv, hle⟩ := h
  exact (exactValue_le_iff hy hv).2 (abs_le.1 hle).1

theorem add (hx : Within b x) (hy : Within c y) (h : IsValue (b + c)) :
    Within (b + c) (x + y) := by
  obtain ⟨u, hu, hub⟩ := hx
  obtain ⟨v, hv, hvc⟩ := hy
  exact (roundedFrom_add hu hv).within h ((abs_add_le u v).trans (add_le_add hub hvc))

theorem mul (hx : Within b x) (hy : Within c y) (h : IsValue (b * c)) :
    Within (b * c) (x * y) := by
  obtain ⟨u, hu, hub⟩ := hx
  obtain ⟨v, hv, hvc⟩ := hy
  refine (roundedFrom_mul hu hv).within h ?_
  rw [abs_mul]
  exact mul_le_mul hub hvc (abs_nonneg v) ((abs_nonneg u).trans hub)

end Within

end NeighborSearch.Binary
