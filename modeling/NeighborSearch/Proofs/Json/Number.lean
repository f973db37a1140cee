import NeighborSearch.Json.Number
import NeighborSearch.Proofs.Decimal.DoubleRounding
import NeighborSearch.Proofs.Binary.Ordinal

/-! What numbers are written as in JSON.

Each layout writes the digits of the shortest decimal and zeros around them, so that what is
written is worth the same (`magnitude_numeral`), and always has a point or an exponent. All digits
of a single-precision value make one word, and one power of ten is left (`magnitude_singleLayout`).
A reader that takes words digit by digit takes all of them (`leading_eq`). -/
namespace NeighborSearch.Json
open Decimal Binary

/-! ### What is written -/

section Written
variable (negative : Bool) (ds : List Digit)

theorem ofDigits_zeros (n : Nat) : ofDigits (zeros n) = 0 := ofDigits_replicate_zero n

theorem magnitude_positional_nonneg (n : Nat) :
    (positional negative ds n).magnitude = ⟨ofDigits ds * 10 ^ (n + 1), -1⟩ := by
  have hdigits : ofDigits (ds ++ zeros n ++ [Digit.zero]) = ofDigits ds * 10 ^ (n + 1) := by
    rw [List.append_assoc, ofDigits_append, show zeros n ++ [Digit.zero] = zeros (n + 1) from
      List.replicate_succ'.symm, ofDigits_zeros, zeros, List.length_replicate, Nat.add_zero]
  rw [positional, if_pos (Int.natCast_nonneg n), Int.toNat_natCast]
  exact congrArg₂ Decimal.mk hdigits rfl

theorem magnitude_positional_neg {e : Int} (he : e < 0) :
    (positional negative ds e).magnitude = ⟨ofDigits ds, e⟩ := by
  obtain ⟨n, rfl⟩ : ∃ n : Nat, e = -(n : Int) := ⟨e.natAbs, by omega⟩
  rw [positional, if_neg (by omega), neg_neg, Int.toNat_natCast]
  dsimp only
  generalize hpadded : zeros (n + 1 - ds.length) ++ ds = padded
  have hlength : n < padded.length := by
    rw [← hpadded, List.length_append, zeros, List.length_replicate]
    omega
  have hdigits : ofDigits padded = ofDigits ds := by
    rw [← hpadded, ofDigits_append, ofDigits_zeros, Nat.zero_mul, Nat.zero_add]
  rw [Numeral.magnitude, List.take_append_drop, hdigits, List.length_drop, Option.getD_none]
  congr 1
  omega

theorem magnitude_scientific (hds : 0 < ds.length) (leading : Int) :
    (scientific negative ds leading).magnitude = ⟨ofDigits ds, leading + 1 - ds.length⟩ := by
  rw [scientific, Numeral.magnitude, List.take_append_drop, List.length_drop, Option.getD_some]
  congr 1
  omega

end Written

theorem negative_numeral (l : Layout) (negative : Bool) (k : Nat) :
    (l.numeral negative k).negative = negative := by
  simp only [Layout.numeral, positional, scientific, apply_ite Numeral.negative, ite_self]

theorem isInteger_numeral (l : Layout) (negative : Bool) (k : Nat) :
    (l.numeral negative k).isInteger = false := by
  rw [Layout.numeral]
  split
  · rfl
  · split
    · rw [positional]
      split
      · rfl
      · -- a negative exponent leaves at least one digit behind the point
        rename_i hneg
        simp only [Numeral.isInteger, Bool.and_eq_false_iff, List.isEmpty_eq_false_iff, ne_eq,
          List.drop_eq_nil_iff, List.length_append, zeros, List.length_replicate]
        omega
    · exact Bool.and_false _

/-- A layout writes the digits of the shortest decimal, with one more zero behind the point if
there are none behind it. -/
theorem magnitude_numeral (l : Layout) (negative : Bool) (k : Nat) :
    (l.numeral negative (k + 1)).magnitude = shortest l.format (k + 1) ∨
      ∃ n : Nat, (shortest l.format (k + 1)).exponent = n ∧
        n + (toDigits (shortest l.format (k + 1)).coefficient).length - 1 ≤ l.greatest ∧
        (l.numeral negative (k + 1)).magnitude =
          ⟨(shortest l.format (k + 1)).coefficient * 10 ^ (n + 1), -1⟩ := by
  have hlength := length_toDigits_pos (shortest l.format (k + 1)).coefficient
  rw [Layout.numeral, if_neg (Nat.succ_ne_zero k)]
  generalize shortest l.format (k + 1) = d at *
  split
  · rename_i hleading
    rcases lt_or_ge d.exponent 0 with hneg | hnonneg
    · left
      rw [magnitude_positional_neg _ _ hneg, ofDigits_toDigits]
    · obtain ⟨n, hn⟩ := Int.eq_ofNat_of_zero_le hnonneg
      refine .inr ⟨n, hn, ?_, ?_⟩
      · omega
      · rw [hn, magnitude_positional_nonneg, ofDigits_toDigits]
  · left
    rw [magnitude_scientific _ _ hlength, ofDigits_toDigits]
    congr 1
    omega

/-! ### What is read -/

theorem le_foldl_digits (n : Nat) (ds : List Digit) :
    n ≤ ds.foldl (fun n d => 10 * n + d.val) n := by
  rw [foldl_digits]
  exact Nat.le_add_right_of_le (Nat.le_mul_of_pos_right n (Nat.pow_pos (by decide)))

theorem takeWord_eq {word : Nat} {ds : List Digit}
    (h : ds.foldl (fun n d => 10 * n + d.val) word < wordLimit) :
    takeWord word ds = (ds.foldl (fun n d => 10 * n + d.val) word, []) := by
  induction ds generalizing word with
  | nil => rfl
  | cons d ds ih =>
    rw [List.foldl_cons] at h ⊢
    rw [takeWord, if_pos ((le_foldl_digits _ ds).trans_lt h), ih h]

/-- Digits that make a word are all read. -/
theorem leading_eq {n : Numeral} (h : n.magnitude.coefficient < wordLimit) :
    n.leading = (n.magnitude.coefficient, n.magnitude.exponent) := by
  have hall : n.magnitude.coefficient =
      n.fraction.foldl (fun n d => 10 * n + d.val) (ofDigits n.whole) := List.foldl_append
  rw [hall] at h
  have hwhole : takeWord 0 n.whole = (ofDigits n.whole, []) :=
    takeWord_eq ((le_foldl_digits _ n.fraction).trans_lt h)
  rw [Numeral.leading, hwhole]
  dsimp only
  rw [takeWord_eq h, ← hall]
  simp [Numeral.magnitude]

/-! ### Single-precision values -/

/-- The exponent stays in reach of a single power of ten. -/
theorem exponent_shortest {k : Nat} (hk : k + 1 < single.infinity) :
    -100 ≤ (shortest single (k + 1)).exponent ∧ (shortest single (k + 1)).exponent ≤ 100 := by
  obtain ⟨hrounds, hpos, hlt, -⟩ := shortest_spec (f := single) (by decide) (by decide) k
  have hleast : single.midpoint 0 = (1 : Nat) * 2 ^ (-150 : Int) :=
    Format.midpoint_canonical (f := single) (j := 0) (m := 0) (.inl rfl) (by decide)
  have hgreatest : single.value single.infinity = (2 ^ 23 : Nat) * 2 ^ (105 : Int) :=
    Format.value_canonical (f := single) (j := 254) (m := 2 ^ 23) (.inr le_rfl) (by decide)
  have hlow := (single.midpoint_strictMono.monotone (Nat.zero_le k)).trans
    (hrounds.midpoint_le (Nat.lt_succ_self k))
  have hhigh := hrounds.le_midpoint.trans_lt (single.midpoint_lt_value hk)
  rw [hleast] at hlow
  rw [hgreatest] at hhigh
  rw [value] at hlow hhigh
  generalize (shortest single (k + 1)).exponent = e at *
  generalize (shortest single (k + 1)).coefficient = c at *
  have hten := ten_zpow_pos e
  have hc1 : (1 : ℚ) ≤ c := by exact_mod_cast hpos
  have hc2 : (c : ℚ) ≤ 2 ^ 29 := by exact_mod_cast hlt.le
  have habove : (10 : ℚ) ^ (-101 : Int) < 10 ^ e := by
    have hmul := mul_le_mul_of_nonneg_right hc2 hten.le
    norm_num at hlow ⊢
    linarith
  have hbelow : (10 : ℚ) ^ e < 10 ^ (101 : Int) := by
    have hmul := mul_le_mul_of_nonneg_right hc1 hten.le
    norm_num at hhigh ⊢
    linarith
  rw [zpow_lt_zpow_iff_right₀ (by norm_num)] at habove hbelow
  omega

/-- All digits that are written make one word, and one power of ten is left. -/
theorem magnitude_singleLayout (negative : Bool) {k : Nat} (hk : k + 1 < single.infinity) :
    ∃ w e, (singleLayout.numeral negative (k + 1)).magnitude = ⟨w, e⟩ ∧ 0 < w ∧ w < 2 ^ 53 ∧
      -100 ≤ e ∧ e ≤ 100 ∧ value (shortest single (k + 1)) = w * 10 ^ e := by
  obtain ⟨-, hpos, hlt, -⟩ := shortest_spec (f := single) (by decide) (by decide) k
  obtain ⟨hlow, hhigh⟩ := exponent_shortest hk
  rcases magnitude_numeral singleLayout negative k with h | ⟨n, hn, hdigits, h⟩
  · exact ⟨_, _, h, hpos, hlt.trans (by decide), hlow, hhigh, rfl⟩
  · refine ⟨_, _, h, Nat.mul_pos hpos (Nat.pow_pos (by decide)), ?_, by decide, by decide, ?_⟩
    · have hplaces : (toDigits (shortest single (k + 1)).coefficient).length + (n + 1) ≤ 14 := by
        have hdigits' : (n : Int) + (toDigits (shortest single (k + 1)).coefficient).length - 1 ≤
            12 := hdigits
        omega
      calc (shortest single (k + 1)).coefficient * 10 ^ (n + 1)
          ≤ 10 ^ (toDigits (shortest single (k + 1)).coefficient).length * 10 ^ (n + 1) :=
            Nat.mul_le_mul_right _ (lt_pow_length _).le
        _ ≤ 10 ^ 14 := by
            rw [← pow_add]
            exact Nat.pow_le_pow_right (by decide) hplaces
        _ < 2 ^ 53 := by decide
    · rw [value]
      show _ = (((shortest single (k + 1)).coefficient * 10 ^ (n + 1) : Nat) : ℚ) * 10 ^ (-1 : Int)
      have hn' : (shortest single (k + 1)).exponent = n := hn
      rw [hn', zpow_natCast, zpow_neg_one]
      push_cast
      ring

/-- A 64-bit word is read back. -/
theorem nat?_ofNat {n : Nat} (hn : n < wordLimit) : nat? (Json.ofNat n) = some n := by
  simp [nat?, Json.ofNat, Numeral.isInteger, ofDigits_toDigits, hn]

end NeighborSearch.Json
