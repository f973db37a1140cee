import NeighborSearch.Proofs.Json.Number

/-! What written numbers are read back as.

Two ways of reading are looked at, each of them as what a reader owes. One takes the double nearest
to a number and rounds it to single precision (`RoundsTwice`). It gives back what was written, but
for the value whose decimal has a midpoint for its nearest double (`RoundsTwice.read_numeral`). The
other one takes the digits for a word and scales it by the power of ten that is left, which is one
rounded operation (`ScalesWords`). It gives back everything (`ScalesWords.read_numeral`), and it is
how this library reads (`single?_scalesWords`). -/
namespace NeighborSearch.Json
open Decimal Binary

variable {reader : Numeral → Option Float32}

/-! ### Ways of reading -/

/-- A number is rounded to the nearest double, and that one to single precision. -/
def RoundsTwice (reader : Numeral → Option Float32) : Prop :=
  ∀ (n : Numeral) (k l : Nat), double.Rounds (value n.magnitude) k → k < double.infinity →
    single.Rounds (double.value k) l → l < single.infinity →
      reader n = some (toSingle n.negative l)

/-- A number with a point or an exponent, whose digits make a 64-bit word, is this word as a double,
scaled by the power of ten that is left and then rounded to single precision. -/
def ScalesWords (reader : Numeral → Option Float32) : Prop :=
  ∀ n : Numeral, n.isInteger = false → n.magnitude.coefficient < 2 ^ 64 →
    reader n = (scale? (UInt64.ofNat n.magnitude.coefficient).toFloat n.magnitude.exponent).map
      fun x => roundToSingle (if n.negative then -x else x)

theorem single?_scalesWords : ScalesWords Numeral.single? := by
  intro n hinteger hword
  have hisWord : n.isWord = false := by rw [Numeral.isWord, hinteger, Bool.false_and]
  rw [Numeral.single?, hisWord, Numeral.double?, leading_eq hword]
  simp only [Bool.false_eq_true, if_false]
  cases scale? (UInt64.ofNat n.magnitude.coefficient).toFloat n.magnitude.exponent <;> rfl

/-- Reads by way of the nearest double, if that is finite. -/
def readTwice (n : Numeral) : Option Float32 :=
  let k := nearest double n.magnitude
  if k < double.infinity then some (roundToSingle (toDouble n.negative k)) else none

theorem readTwice_roundsTwice : RoundsTwice readTwice := by
  intro n k l hk hfinite hl hlt
  rw [readTwice, nearest_double_of_rounds hk hfinite]
  exact (if_pos hfinite).trans
    (congrArg some (roundToSingle_of_rounds (ofDouble_toDouble _ hfinite) hl hlt))

/-! ### By way of the nearest double -/

/-- The magnitude that is read for a written one. Its decimal is 7038531 / 10 ^ 32, which lies so
near to the midpoint above it that the nearest double is this midpoint. -/
def reread (k : Nat) : Nat := if k = 0x15ae43fd then k + 1 else k

theorem reread_lt {k : Nat} (hk : k < single.infinity) : reread k < single.infinity := by
  rw [reread]
  split
  · next heq =>
    rw [heq]
    decide
  · exact hk

theorem convert_nearMisses (negative : Bool) {j : Nat} (hj : j ∈ nearMisses) :
    double.convert single (nearest double (singleLayout.numeral negative j).magnitude) =
        reread j ∧
      double.convert single (nearest double (singleLayout.numeral negative (j + 1)).magnitude) =
        reread (j + 1) := by
  revert j negative
  decide +kernel

/-- The double that is nearest to a written value, and what that one is rounded to. -/
theorem exists_rounds_reread (negative : Bool) {k : Nat} (hk : k + 1 < single.infinity) :
    ∃ l, double.Rounds (value (singleLayout.numeral negative (k + 1)).magnitude) l ∧
      l < double.infinity ∧ single.Rounds (double.value l) (reread (k + 1)) := by
  obtain ⟨w, e, hmagnitude, hw0, hw, hlow, hhigh, hvalue⟩ := magnitude_singleLayout negative hk
  obtain ⟨l, hl, hfinite, hclose⟩ := exists_close_double hw0 hw hlow hhigh
  have hdouble : double.Rounds (value (singleLayout.numeral negative (k + 1)).magnitude) l := by
    rw [hmagnitude]
    exact hl
  refine ⟨l, hdouble, hfinite, ?_⟩
  by_cases hnear : k + 1 ∈ nearMisses ∨ k ∈ nearMisses
  · -- the few values next to a near miss are computed
    have hconvert : double.convert single
        (nearest double (singleLayout.numeral negative (k + 1)).magnitude) = reread (k + 1) :=
      hnear.elim (fun h => (convert_nearMisses negative h).1)
        fun h => (convert_nearMisses negative h).2
    obtain ⟨m, hm⟩ := Format.exists_rounds (f := single) (by decide) (double.value_nonneg l)
    rw [nearest_double_of_rounds hdouble hfinite, Format.nearest_value (by decide) hm] at hconvert
    have hlt := reread_lt hk
    obtain rfl : m = reread (k + 1) := by omega
    exact hm
  · rw [not_or] at hnear
    have hreread : reread (k + 1) = k + 1 := if_neg fun h => hnear.1 (by rw [h]; decide)
    rw [hreread]
    exact rounds_scaled hk hnear.2 hnear.1 hw0 hw hvalue hclose fun _ _ => hl

/-- **By way of the nearest double one value is lost**: all others are read back from what is
written for them, their signs included, and that one is read as the next greater one. -/
theorem RoundsTwice.read_numeral (h : RoundsTwice reader) (negative : Bool) {k : Nat}
    (hk : k < single.infinity) :
    reader (singleLayout.numeral negative k) = some (toSingle negative (reread k)) := by
  cases k with
  | zero =>
    have hzero : value (singleLayout.numeral negative 0).magnitude = double.value 0 := by
      rw [double.value_zero, value]
      exact mul_eq_zero_of_left Nat.cast_zero _
    refine h _ 0 0 (hzero ▸ double.rounds_value 0) (by decide) ?_ (by decide)
    rw [double.value_zero, ← single.value_zero]
    exact single.rounds_value 0
  | succ k =>
    obtain ⟨l, hl, hfinite, hrounds⟩ := exists_rounds_reread negative hk
    have hread := h _ l _ hl hfinite hrounds (reread_lt hk)
    rwa [negative_numeral] at hread

/-! ### By way of a scaled word -/

namespace ScalesWords

/-- Such readers agree on what is written for single-precision values. -/
theorem read_eq_single? (h : ScalesWords reader) (negative : Bool) {k : Nat}
    (hk : k < single.infinity) :
    reader (singleLayout.numeral negative k) = (singleLayout.numeral negative k).single? := by
  have hinteger := isInteger_numeral singleLayout negative k
  have hword : (singleLayout.numeral negative k).magnitude.coefficient < 2 ^ 64 := by
    cases k with
    | zero => exact Nat.two_pow_pos 64
    | succ k =>
      obtain ⟨w, e, hmagnitude, -, hw, -⟩ := magnitude_singleLayout negative hk
      rw [hmagnitude]
      exact hw.trans (by decide)
  rw [h _ hinteger hword, single?_scalesWords _ hinteger hword]

/-- The values next to a near miss come back, too. -/
theorem single?_nearMisses (negative : Bool) {j : Nat} (hj : j ∈ nearMisses) :
    (singleLayout.numeral negative j).single? = some (toSingle negative j) ∧
      (singleLayout.numeral negative (j + 1)).single? = some (toSingle negative (j + 1)) := by
  revert j negative
  decide +kernel

/-- **By way of a scaled word every value is read back** from what is written for it, its sign
included. -/
theorem read_numeral (h : ScalesWords reader) (negative : Bool) {k : Nat}
    (hk : k < single.infinity) :
    reader (singleLayout.numeral negative k) = some (toSingle negative k) := by
  rw [h.read_eq_single? negative hk]
  cases k with
  | zero =>
    revert negative
    decide +kernel
  | succ k =>
    by_cases hnear : k + 1 ∈ nearMisses ∨ k ∈ nearMisses
    · exact hnear.elim (fun h => (single?_nearMisses negative h).1)
        fun h => (single?_nearMisses negative h).2
    · rw [not_or] at hnear
      obtain ⟨w, e, hmagnitude, hw0, hw, hlow, hhigh, hvalue⟩ := magnitude_singleLayout negative hk
      obtain ⟨x, l, hscale, hx, hclose, hexact⟩ := scale?_spec hw0 hw hlow hhigh
      have hrounds := rounds_scaled hk hnear.2 hnear.1 hw0 hw hvalue hclose hexact
      have hword : (singleLayout.numeral negative (k + 1)).magnitude.coefficient < 2 ^ 64 := by
        rw [hmagnitude]
        exact hw.trans (by decide)
      rw [single?_scalesWords _ (isInteger_numeral _ _ _) hword, hmagnitude, negative_numeral]
      dsimp only
      rw [hscale]
      cases negative with
      | false => exact congrArg some (roundToSingle_of_rounds hx hrounds hk)
      | true => exact congrArg some (roundToSingle_of_rounds (ofDouble_neg hx) hrounds hk)

end ScalesWords

/-! ### Finite values -/

/-- What a value comes back as by way of the nearest double: the one whose bits are `15ae43fd`, or
`95ae43fd` with the sign, as the next one, and every other one as itself. -/
def throughDouble (x : Float32) : Float32 :=
  if x.toBits = 0x15ae43fd ∨ x.toBits = 0x95ae43fd then Float32.ofBits (x.toBits + 1) else x

theorem throughDouble_toSingle (negative : Bool) :
    throughDouble (toSingle negative 0x15ae43fd) = toSingle negative 0x15ae43fe := by
  cases negative <;> decide +kernel

theorem throughDouble_of_finite {x : Float32} {negative : Bool} {k : Nat}
    (h : Binary.ofSingle x = .finite negative k) : throughDouble x = toSingle negative (reread k) := by
  by_cases hk : k = 0x15ae43fd
  · subst hk
    rw [← toSingle_of_finite h, throughDouble_toSingle]
    rfl
  · have hbits : ¬ (x.toBits = 0x15ae43fd ∨ x.toBits = 0x95ae43fd) := by
      have hpositive : single.decode (0x15ae43fd : UInt32).toNat = .finite false 0x15ae43fd := by
        decide
      have hnegative : single.decode (0x95ae43fd : UInt32).toNat = .finite true 0x15ae43fd := by
        decide
      rintro (hx | hx)
      · rw [Binary.ofSingle, hx, hpositive] at h
        cases h
        exact hk rfl
      · rw [Binary.ofSingle, hx, hnegative] at h
        cases h
        exact hk rfl
    rw [throughDouble, if_neg hbits, reread, if_neg hk, toSingle_of_finite h]

theorem RoundsTwice.singleBy?_ofSingle (h : RoundsTwice reader) {x : Float32}
    (hx : x.isFinite = true) : singleBy? reader (Json.ofSingle x) = some (throughDouble x) := by
  obtain ⟨negative, k, hfinite⟩ := isFinite_iff.1 hx
  rw [Json.ofSingle, hfinite, throughDouble_of_finite hfinite]
  exact h.read_numeral negative (magnitude_lt_infinity hfinite)

theorem ScalesWords.singleBy?_ofSingle (h : ScalesWords reader) {x : Float32}
    (hx : x.isFinite = true) : singleBy? reader (Json.ofSingle x) = some x := by
  obtain ⟨negative, k, hfinite⟩ := isFinite_iff.1 hx
  rw [Json.ofSingle, hfinite]
  exact (h.read_numeral negative (magnitude_lt_infinity hfinite)).trans
    (congrArg some (toSingle_of_finite hfinite))

end NeighborSearch.Json
