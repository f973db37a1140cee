import NeighborSearch.Decimal.Fixed
import NeighborSearch.Proofs.Binary.Nearest
import NeighborSearch.Proofs.Decimal.Digits

/-! What is written with a fixed number of decimal places.

`Shows` tells it by the value of the number: it is the multiple of the last place that is nearest
to the value, a tie going to the even one. It is written in the usual digits, with as many behind
the point as there are places (`shows_fixed`). -/
namespace NeighborSearch.Decimal
open Binary

/-! ### Digits -/

/-- The digits of a number are the usual ones. -/
theorem digitString_toDigits (n : Nat) : digitString (toDigits n) = toString n := by
  have hdigit : ∀ d : Digit, d.toChar = d.val.digitChar := by decide
  show _ = n.repr
  rw [← String.toList_inj, Nat.toList_repr, digitString, String.toList_ofList]
  induction n using Nat.strong_induction_on with
  | _ n ih =>
    by_cases hn : n < 10
    · rw [toDigits_of_lt hn, Nat.toDigits_of_lt_base hn, List.map_singleton, hdigit]
    · have hlt : n / 10 < n := Nat.div_lt_self (by omega) (by decide)
      rw [toDigits_of_le (not_lt.1 hn), List.map_append, ih _ hlt, List.map_singleton, hdigit,
        Nat.toDigits_of_base_le (by decide) (not_lt.1 hn)]

theorem digitString_padded (width n : Nat) :
    digitString (padded width (toDigits n)) = String.leftpad width '0' (toString n) := by
  rw [← String.toList_inj, ← digitString_toDigits, String.leftpad, digitString, digitString,
    String.toList_ofList, String.toList_ofList, String.toList_ofList, padded, List.map_append,
    List.map_replicate, List.leftpad, List.length_map]
  rfl

/-! ### Values -/

/-- What a number of a format is shown as with so many places behind the point. -/
inductive Shows (f : Format) (places : Nat) : Number → String → Prop
  | nan : Shows f places .nan "NaN"
  | infinity : Shows f places (.infinite false) "inf"
  | negativeInfinity : Shows f places (.infinite true) "-inf"
  /-- So many units of the last place. -/
  | finite {negative : Bool} {magnitude units : Nat}
      (h : IsRound (f.value magnitude * 10 ^ places) units) :
      Shows f places (.finite negative magnitude)
        ((if negative then "-" else "") ++ (toString (units / 10 ^ places) ++ "." ++
          String.leftpad places '0' (toString (units % 10 ^ places))))

theorem shows_fixed (f : Format) (places : Nat) (x : Number) :
    Shows f places x (fixed f places x) := by
  cases x with
  | nan => exact .nan
  | infinite negative =>
    cases negative with
    | false => exact .infinity
    | true => exact .negativeInfinity
  | finite negative magnitude =>
    have hround := isRound_roundDiv (f.significand magnitude * 2 ^ (f.exponent magnitude).toNat *
      10 ^ places) (Nat.two_pow_pos (-f.exponent magnitude).toNat)
    rw [Nat.cast_mul _ (10 ^ places), mul_div_right_comm, ← f.value_eq_div, Nat.cast_pow] at hround
    have hshows : Shows f places (.finite negative magnitude) _ := .finite hround
    rw [← digitString_toDigits, ← digitString_padded] at hshows
    exact hshows

end NeighborSearch.Decimal
