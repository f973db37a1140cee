import NeighborSearch.Proofs.Binary.Fields

/-! The values of a format and rounding to them.

A magnitude is `j * 2 ^ fractionBits + m`, where the significand `m` has its leading bit unless
`j` is 0, and its value is `m * 2 ^ (leastExponent + j)` (`value_canonical`). So from one magnitude
to the next the value grows by one unit of its last bit (`value_succ`), and half-way between them
lies the `midpoint`. `Rounds x k` says that `x` lies between the midpoints on either side of `k`,
which belong to `k` if it is even: each number rounds to one magnitude (`Rounds.unique`), a greater
number to no smaller one (`Rounds.mono`), and a value to itself (`rounds_value`). -/
namespace NeighborSearch.Binary.Format
variable {f : Format} {j k m : Nat}

/-! ### Values -/

/-- The value with this magnitude. -/
def value (f : Format) (k : Nat) : ℚ := f.significand k * 2 ^ f.exponent k

/-- Every magnitude has a significand below `2 ^ (fractionBits + 1)`, with its leading bit unless
the exponent is the least one. -/
theorem exists_canonical (f : Format) (k : Nat) : ∃ j m, k = j * 2 ^ f.fractionBits + m ∧
    (j = 0 ∨ 2 ^ f.fractionBits ≤ m) ∧ m < 2 * 2 ^ f.fractionBits := by
  have hk := Nat.div_add_mod' k (2 ^ f.fractionBits)
  have hlt : k % 2 ^ f.fractionBits < 2 ^ f.fractionBits := Nat.mod_lt _ (Nat.two_pow_pos _)
  cases hq : k / 2 ^ f.fractionBits with
  | zero =>
    rw [hq, Nat.zero_mul] at hk
    exact ⟨0, k, by omega, .inl rfl, by omega⟩
  | succ j =>
    rw [hq, Nat.succ_mul] at hk
    exact ⟨j, 2 ^ f.fractionBits + k % 2 ^ f.fractionBits, by omega, .inr (by omega), by omega⟩

section Canonical
variable (hj : j = 0 ∨ 2 ^ f.fractionBits ≤ m)
include hj

theorem significand_canonical (hm : m < 2 * 2 ^ f.fractionBits) :
    f.significand (j * 2 ^ f.fractionBits + m) = m := by
  by_cases hlt : m < 2 ^ f.fractionBits
  · obtain rfl : j = 0 := by omega
    rw [significand_fields hlt, if_pos rfl]
  · have hfields : j * 2 ^ f.fractionBits + m =
        (j + 1) * 2 ^ f.fractionBits + (m - 2 ^ f.fractionBits) := by
      rw [Nat.succ_mul]
      omega
    rw [hfields, significand_fields (by omega), if_neg (Nat.succ_ne_zero j)]
    omega

theorem exponent_canonical (hm : m < 2 * 2 ^ f.fractionBits) :
    f.exponent (j * 2 ^ f.fractionBits + m) = f.leastExponent + j := by
  by_cases hlt : m < 2 ^ f.fractionBits
  · obtain rfl : j = 0 := by omega
    rw [exponent_fields hlt]
  · have hfields : j * 2 ^ f.fractionBits + m =
        (j + 1) * 2 ^ f.fractionBits + (m - 2 ^ f.fractionBits) := by
      rw [Nat.succ_mul]
      omega
    rw [hfields, exponent_fields (by omega), Nat.add_sub_cancel]

/-- This holds of one significand more than there are: the next one has the next exponent. -/
theorem value_canonical (hm : m ≤ 2 * 2 ^ f.fractionBits) :
    f.value (j * 2 ^ f.fractionBits + m) = m * 2 ^ (f.leastExponent + j) := by
  rcases Nat.lt_or_eq_of_le hm with hlt | rfl
  · rw [value, significand_canonical hj hlt, exponent_canonical hj hlt]
  · have hnext : j * 2 ^ f.fractionBits + 2 * 2 ^ f.fractionBits =
        (j + 1) * 2 ^ f.fractionBits + 2 ^ f.fractionBits := by
      rw [Nat.succ_mul j]
      omega
    have hpos := Nat.two_pow_pos f.fractionBits
    rw [value, hnext, significand_canonical (.inr (Nat.le_refl _)) (by omega),
      exponent_canonical (.inr (Nat.le_refl _)) (by omega)]
    push_cast
    rw [← add_assoc, zpow_add_one₀ (by norm_num : (2 : ℚ) ≠ 0)]
    ring

end Canonical

/-- The next value is one unit of the last bit away. -/
theorem value_succ (f : Format) (k : Nat) : f.value (k + 1) = f.value k + 2 ^ f.exponent k := by
  obtain ⟨j, m, rfl, hj, hm⟩ := f.exists_canonical k
  have hj' : j = 0 ∨ 2 ^ f.fractionBits ≤ m + 1 := by omega
  rw [Nat.add_assoc, value_canonical hj' hm, value_canonical hj hm.le, exponent_canonical hj hm]
  push_cast
  ring

theorem unit_pos (f : Format) (k : Nat) : (0 : ℚ) < 2 ^ f.exponent k :=
  zpow_pos (by norm_num) _

theorem value_strictMono (f : Format) : StrictMono f.value :=
  strictMono_nat_of_lt_succ fun k => by
    rw [value_succ]
    exact lt_add_of_pos_right _ (f.unit_pos k)

theorem value_zero (f : Format) : f.value 0 = 0 := by
  have h := value_canonical (f := f) (j := 0) (m := 0) (.inl rfl) (Nat.zero_le _)
  rw [Nat.zero_mul, Nat.zero_add, Nat.cast_zero, zero_mul] at h
  exact h

theorem exponent_mono (f : Format) {a b : Nat} (h : a ≤ b) : f.exponent a ≤ f.exponent b := by
  have hdiv : a / 2 ^ f.fractionBits ≤ b / 2 ^ f.fractionBits := Nat.div_le_div_right h
  rw [exponent, exponent, show Nat.pow 2 f.fractionBits = 2 ^ f.fractionBits from rfl]
  omega

theorem exponent_succ_le (f : Format) (k : Nat) : f.exponent (k + 1) ≤ f.exponent k + 1 := by
  obtain ⟨j, m, rfl, hj, hm⟩ := f.exists_canonical k
  rw [exponent_canonical hj hm]
  rcases Nat.lt_or_eq_of_le (Nat.succ_le_of_lt hm) with hlt | heq
  · rw [Nat.add_assoc, exponent_canonical (by omega) hlt]
    omega
  · have hnext : j * 2 ^ f.fractionBits + m + 1 = (j + 1) * 2 ^ f.fractionBits +
        2 ^ f.fractionBits := by
      rw [Nat.succ_mul j]
      omega
    have hpos := Nat.two_pow_pos f.fractionBits
    rw [hnext, exponent_canonical (.inr le_rfl) (by omega)]
    omega

/-- Whatever a significand and an exponent make is a value, in its canonical form or not. -/
theorem exists_value (hm : m ≤ 2 * 2 ^ f.fractionBits) {e : Int} (he : f.leastExponent ≤ e) :
    ∃ k, f.value k = m * 2 ^ e := by
  obtain ⟨j, rfl⟩ : ∃ j : Nat, e = f.leastExponent + j := ⟨(e - f.leastExponent).toNat, by omega⟩
  clear he
  induction j generalizing m with
  | zero => exact ⟨_, value_canonical (.inl rfl) hm⟩
  | succ j ih =>
    by_cases hlt : m < 2 ^ f.fractionBits
    · obtain ⟨k, hk⟩ := @ih (2 * m) (by omega)
      refine ⟨k, ?_⟩
      rw [hk]
      push_cast
      rw [← add_assoc, zpow_add_one₀ two_ne_zero]
      ring
    · exact ⟨_, value_canonical (.inr (by omega)) hm⟩

theorem value_nonneg (f : Format) (k : Nat) : 0 ≤ f.value k := by
  rw [← f.value_zero]
  exact f.value_strictMono.monotone (Nat.zero_le k)

/-- A value other than zero is at least one unit of its last bit, and has no more units than there
are significands. -/
theorem unit_le_value (f : Format) (hk : 0 < k) : (2 : ℚ) ^ f.exponent k ≤ f.value k := by
  have hpos : 1 ≤ f.significand k := significand_pos hk.ne'
  exact le_mul_of_one_le_left (f.unit_pos k).le (by exact_mod_cast hpos)

theorem value_lt_units (f : Format) (k : Nat) :
    f.value k < 2 * 2 ^ f.fractionBits * 2 ^ f.exponent k := by
  obtain ⟨j, m, rfl, hj, hm⟩ := f.exists_canonical k
  rw [value, significand_canonical hj hm]
  exact mul_lt_mul_of_pos_right (by exact_mod_cast hm) (f.unit_pos _)

/-- The value with this sign and magnitude. -/
def signedValue (f : Format) (negative : Bool) (k : Nat) : ℚ :=
  if negative then -f.value k else f.value k

theorem signedValue_zero (f : Format) (negative : Bool) : f.signedValue negative 0 = 0 := by
  cases negative <;> simp [signedValue, f.value_zero]

theorem signedValue_not (f : Format) (negative : Bool) (k : Nat) :
    f.signedValue (!negative) k = -f.signedValue negative k := by
  cases negative <;> simp [signedValue]

theorem abs_signedValue (f : Format) (negative : Bool) (k : Nat) :
    |f.signedValue negative k| = f.value k := by
  cases negative <;> simp [signedValue, abs_of_nonneg (f.value_nonneg k)]

theorem signedValue_nonpos (f : Format) (k : Nat) : f.signedValue true k ≤ 0 :=
  neg_nonpos.2 (f.value_nonneg k)

theorem signedValue_mul (f : Format) (na nb : Bool) (a b : Nat) :
    f.signedValue na a * f.signedValue nb b =
      if na ^^ nb then -(f.value a * f.value b) else f.value a * f.value b := by
  cases na <;> cases nb <;> simp [signedValue]

theorem signedValue_div (f : Format) (na nb : Bool) (a b : Nat) :
    f.signedValue na a / f.signedValue nb b =
      if na ^^ nb then -(f.value a / f.value b) else f.value a / f.value b := by
  cases na <;> cases nb <;> simp [signedValue, neg_div, div_neg]

theorem signedValue_neg_iff {negative : Bool} (hk : k ≠ 0) :
    f.signedValue negative k < 0 ↔ negative = true := by
  have hpos := f.value_strictMono (Nat.pos_of_ne_zero hk)
  rw [value_zero] at hpos
  cases negative with
  | false => simpa [signedValue] using hpos.le
  | true => simpa [signedValue] using hpos

/-! ### Midpoints -/

/-- Half-way from this value to the next one. -/
def midpoint (f : Format) (k : Nat) : ℚ := f.value k + 2 ^ f.exponent k / 2

/-- A midpoint is an odd number of halves of a last bit. -/
theorem midpoint_canonical (hj : j = 0 ∨ 2 ^ f.fractionBits ≤ m) (hm : m < 2 * 2 ^ f.fractionBits) :
    f.midpoint (j * 2 ^ f.fractionBits + m) =
      (2 * m + 1 : Nat) * 2 ^ (f.leastExponent + j - 1) := by
  rw [midpoint, value_canonical hj hm.le, exponent_canonical hj hm, zpow_sub_one₀ two_ne_zero]
  push_cast
  ring

theorem value_lt_midpoint (f : Format) (k : Nat) : f.value k < f.midpoint k := by
  have h := f.unit_pos k
  rw [midpoint]
  linarith

theorem midpoint_lt_value (f : Format) {j k : Nat} (h : j < k) : f.midpoint j < f.value k := by
  have hunit := f.unit_pos j
  have hle := f.value_strictMono.monotone (Nat.succ_le_of_lt h)
  rw [Nat.succ_eq_add_one, value_succ] at hle
  rw [midpoint]
  linarith

theorem midpoint_strictMono (f : Format) : StrictMono f.midpoint := fun _ k h =>
  (f.midpoint_lt_value h).trans (f.value_lt_midpoint k)

/-! ### Rounding -/

/-- To round to the nearest value, a midpoint going to the even one of its neighbors. -/
structure Rounds (f : Format) (x : ℚ) (k : Nat) : Prop where
  above : ∀ j < k, f.midpoint j < x ∨ f.midpoint j = x ∧ k % 2 = 0
  below : x < f.midpoint k ∨ x = f.midpoint k ∧ k % 2 = 0

namespace Rounds
variable {x y : ℚ} {l : Nat}

theorem midpoint_le (h : f.Rounds x k) (hj : j < k) : f.midpoint j ≤ x :=
  (h.above j hj).elim le_of_lt fun h => h.1.le

theorem le_midpoint (h : f.Rounds x k) : x ≤ f.midpoint k :=
  h.below.elim le_of_lt fun h => h.1.le

/-- A greater number does not round to a smaller value. -/
theorem mono (hx : f.Rounds x k) (hy : f.Rounds y l) (h : x ≤ y) : k ≤ l := by
  by_contra hlt
  have hmid : f.midpoint l ≤ x := hx.midpoint_le (by omega)
  have hy' : y ≤ f.midpoint l := hy.le_midpoint
  -- only a midpoint could go to both, and then one of them is even and the next one, too
  have hsame : f.midpoint l = x ∧ y = f.midpoint l := by constructor <;> linarith
  have hl : l % 2 = 0 := by
    rcases hy.below with h | ⟨-, h⟩
    · exact absurd hsame.2 h.ne
    · exact h
  have hk : k % 2 = 0 := by
    rcases hx.above l (by omega) with h | ⟨-, h⟩
    · exact absurd hsame.1 h.ne
    · exact h
  have hnext : f.midpoint (l + 1) ≤ x := hx.midpoint_le (by omega)
  have hlt := f.midpoint_strictMono (Nat.lt_succ_self l)
  linarith

theorem unique (h : f.Rounds x k) (h' : f.Rounds x l) : k = l :=
  Nat.le_antisymm (h.mono h' le_rfl) (h'.mono h le_rfl)

/-- It is enough to look at the neighbor below. -/
theorem of_neighbor (habove : ∀ j, k = j + 1 → f.midpoint j < x ∨ f.midpoint j = x ∧ k % 2 = 0)
    (hbelow : x < f.midpoint k ∨ x = f.midpoint k ∧ k % 2 = 0) : f.Rounds x k := by
  refine ⟨fun j hj => ?_, hbelow⟩
  obtain ⟨i, rfl⟩ : ∃ i, k = i + 1 := ⟨k - 1, by omega⟩
  rcases Nat.lt_or_eq_of_le (Nat.le_of_lt_succ hj) with hlt | rfl
  · have hmid := f.midpoint_strictMono hlt
    rcases habove i rfl with h | ⟨h, -⟩
    · exact .inl (hmid.trans h)
    · exact .inl (h ▸ hmid)
  · exact habove j rfl

/-- What is rounded is off by at most half a unit of the last bit. -/
theorem abs_sub_le (h : f.Rounds x k) (hx : 0 ≤ x) :
    |f.value k - x| ≤ 2 ^ f.exponent k / 2 := by
  rw [abs_le]
  constructor
  · have hle := h.le_midpoint
    rw [midpoint] at hle
    linarith
  · cases k with
    | zero =>
      have := f.unit_pos 0
      rw [value_zero]
      linarith
    | succ j =>
      have hle := h.midpoint_le (Nat.lt_succ_self j)
      have hunit : (2 : ℚ) ^ f.exponent j ≤ 2 ^ f.exponent (j + 1) :=
        zpow_le_zpow_right₀ (by norm_num) (f.exponent_mono (Nat.le_succ j))
      rw [midpoint] at hle
      rw [value_succ]
      linarith

end Rounds

theorem rounds_value (f : Format) (k : Nat) : f.Rounds (f.value k) k :=
  ⟨fun _ hj => .inl (f.midpoint_lt_value hj), .inl (f.value_lt_midpoint k)⟩

/-- From the least value with a leading bit on, what is rounded is off by a small part of itself. -/
theorem Rounds.abs_sub_le_value {x : ℚ} (h : f.Rounds x k)
    (hx : f.value (2 ^ f.fractionBits) ≤ x) :
    |f.value k - x| ≤ f.value k / 2 ^ (f.fractionBits + 1) := by
  have hk := (f.rounds_value _).mono h hx
  refine (h.abs_sub_le ((f.value_nonneg _).trans hx)).trans ?_
  obtain ⟨j, m, rfl, hj, hm⟩ := f.exists_canonical k
  have hlead : (2 : ℚ) ^ f.fractionBits ≤ m := by
    have : 2 ^ f.fractionBits ≤ m := by
      rcases hj with rfl | hj
      · omega
      · exact hj
    exact_mod_cast this
  have hunit : (0 : ℚ) < 2 ^ (f.leastExponent + j) := zpow_pos two_pos _
  rw [exponent_canonical hj hm, value_canonical hj hm.le, pow_succ, div_le_div_iff₀ two_pos
    (by positivity)]
  have hmul := mul_le_mul_of_nonneg_right hlead hunit.le
  linarith

end NeighborSearch.Binary.Format
