import NeighborSearch.Decimal.Scaling
import NeighborSearch.Decimal.Shortest
import NeighborSearch.Json.Basic

/-! Numbers of each kind in JSON.

Whole numbers are 64-bit words and have neither sign, point nor exponent. A value of a
binary format is written with the fewest digits that read back to it, in positional
notation between two exponents (`Layout`) and with an exponent elsewhere; what is not
finite is written as null.

Reading a single-precision value rounds an integer that some 64-bit word stands for once.
Every other number goes through double precision, where it must not overflow: its leading
digits, as far as they make a 64-bit word, are scaled by the power of ten that is left
(`Numeral.leading`, `Numeral.double?`), and what comes out is rounded again. This is how
`Numeral.single?` reads; records are made for any reader of numbers. -/
namespace NeighborSearch.Json
open Decimal Binary

/-- Below this lie the 64-bit words. -/
def wordLimit : Nat := Nat.pow 2 64

def nat? : Json → Option Nat
  | number n =>
    let value := ofDigits n.whole
    if n.isInteger && !n.negative && value < wordLimit then some value else none
  | _ => none

/-! ### Writing -/

/-- The exponents of the first digit from and up to which notation is positional. -/
structure Layout where
  format : Format
  least : Int
  greatest : Int

/-- Single-precision values are positional from 0.000001 up to 13 digits. -/
def singleLayout : Layout := ⟨single, -6, 12⟩

/-- Double-precision values are positional from 0.00001 up to 16 digits. -/
def doubleLayout : Layout := ⟨double, -5, 15⟩

def zeros (n : Nat) : List Digit := List.replicate n Digit.zero

/-- All digits of a decimal, at least one of them on either side of the point. -/
def positional (negative : Bool) (digits : List Digit) (exponent : Int) : Numeral :=
  if 0 ≤ exponent then ⟨negative, digits ++ zeros exponent.toNat, [Digit.zero], none⟩
  else
    let places := (-exponent).toNat
    let padded := zeros (places + 1 - digits.length) ++ digits
    ⟨negative, padded.take (padded.length - places), padded.drop (padded.length - places), none⟩

/-- One digit before the point, and the exponent of that digit. -/
def scientific (negative : Bool) (digits : List Digit) (leading : Int) : Numeral :=
  ⟨negative, digits.take 1, digits.drop 1, some leading⟩

def Layout.numeral (l : Layout) (negative : Bool) (magnitude : Nat) : Numeral :=
  let d := shortest l.format magnitude
  let digits := toDigits d.coefficient
  let leading := d.exponent + digits.length - 1
  if magnitude = 0 then ⟨negative, [Digit.zero], [Digit.zero], none⟩
  else if l.least ≤ leading ∧ leading ≤ l.greatest then positional negative digits d.exponent
  else scientific negative digits leading

def Layout.json (l : Layout) : Number → Json
  | .nan | .infinite _ => null
  | .finite negative magnitude => number (l.numeral negative magnitude)

def ofSingle (x : Float32) : Json := singleLayout.json (Binary.ofSingle x)

def ofDouble (x : Float) : Json := doubleLayout.json (Binary.ofDouble x)

/-! ### Reading -/

/-- Whether a number is an integer that some 64-bit word stands for; the negative zero
is none. -/
def Numeral.isWord (n : Numeral) : Bool :=
  let value := ofDigits n.whole
  n.isInteger && if n.negative then 0 < value && value ≤ Nat.pow 2 63 else value < wordLimit

/-- Puts digits behind a word as long as it stays one. Gives the word and the digits that
are left. -/
def takeWord (word : Nat) : List Digit → Nat × List Digit
  | [] => (word, [])
  | d :: ds => if 10 * word + d.val < wordLimit then takeWord (10 * word + d.val) ds
    else (word, d :: ds)

/-- The leading digits of a number and the exponent of the last of them. Digits that are
left before the point count by their number alone, those behind it not at all. -/
def Numeral.leading (n : Numeral) : Nat × Int :=
  let (word, wholeLeft) := takeWord 0 n.whole
  let (word, fractionLeft) := takeWord word n.fraction
  let exponent := n.exponent.getD 0 + wholeLeft.length
  (word, exponent - (n.fraction.length - fractionLeft.length : Nat))

def Numeral.double? (n : Numeral) : Option Float := do
  let (word, exponent) := n.leading
  let x ← scale? (UInt64.ofNat word).toFloat exponent
  return if n.negative then -x else x

def Numeral.single? (n : Numeral) : Option Float32 :=
  if n.isWord then some (toSingle n.negative (n.magnitude.nearest single))
  else n.double?.map roundToSingle

/-- What a reader makes of a number. -/
def singleBy? (reader : Numeral → Option Float32) : Json → Option Float32
  | number n => reader n
  | _ => none

end NeighborSearch.Json
