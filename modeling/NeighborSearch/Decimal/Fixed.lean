import NeighborSearch.Decimal.Basic

/-! Numbers written with a fixed number of decimal places.

The exact value is rounded once, a tie to the even last digit. The sign of a negative
value stays even where all digits written are zero. -/
namespace NeighborSearch.Decimal
open Binary

def digitString (ds : List Digit) : String :=
  String.ofList (ds.map Digit.toChar)

/-- At least `width` digits, with zeros in front. -/
def padded (width : Nat) (ds : List Digit) : List Digit :=
  List.replicate (width - ds.length) Digit.zero ++ ds

/-- The quotient with `places` digits behind the point; `places` is not 0. -/
def fixedQuotient (places num den : Nat) : String :=
  let n := roundDiv .toEven (num * Nat.pow 10 places) den
  digitString (toDigits (n / Nat.pow 10 places)) ++ "." ++
    digitString (padded places (toDigits (n % Nat.pow 10 places)))

def fixed (f : Format) (places : Nat) : Number → String
  | .nan => "NaN"
  | .infinite negative => if negative then "-inf" else "inf"
  | .finite negative magnitude =>
    let m := f.significand magnitude
    let e := f.exponent magnitude
    (if negative then "-" else "") ++
      fixedQuotient places (m * Nat.pow 2 e.toNat) (Nat.pow 2 (-e).toNat)

def fixedSingle (places : Nat) (x : Float32) : String :=
  fixed single places (ofSingle x)

def fixedDouble (places : Nat) (x : Float) : String :=
  fixed double places (ofDouble x)

end NeighborSearch.Decimal
