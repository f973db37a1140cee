import NeighborSearch.Decimal.Basic

/-! Number literals of one value.

A literal is a sign, which may be left out, and then a word for infinity or for no
number, in letters of either case, or a numeral: digits with at most one point among,
before or behind them, at least one digit, and an exponent that may be left out but not
be empty. `read?` reads the whole of a text as such a literal; `toSingle` is the
single-precision value nearest to what it names. -/
namespace NeighborSearch.Decimal

/-- What a literal names, its sign apart. -/
inductive Named where
  | infinity
  | nan
  | numeral (value : Decimal)
deriving DecidableEq, Repr

structure Literal where
  negative : Bool
  named : Named
deriving DecidableEq, Repr

namespace Literal

/-- A sign is one character, `+` or `-`; without one a literal is positive. -/
def readSign : List Char → Bool × List Char
  | '-' :: cs => (true, cs)
  | '+' :: cs => (false, cs)
  | cs => (false, cs)

def lowered (cs : List Char) : List Char :=
  cs.map Char.toLower

/-- The exponent behind the digits: none at all, or a mark, a sign and digits. -/
def readExponent? : List Char → Option Int
  | [] => some 0
  | c :: cs =>
    if c = 'e' ∨ c = 'E' then
      let (negative, cs) := readSign cs
      match spanDigits cs with
      | ([], _) | (_, _ :: _) => none
      | (ds, []) => some (if negative then -(ofDigits ds : Int) else ofDigits ds)
    else none

def readFraction : List Char → List Digit × List Char
  | '.' :: cs => spanDigits cs
  | cs => ([], cs)

def readNumeral? (cs : List Char) : Option Decimal :=
  let (whole, cs) := spanDigits cs
  let (fraction, cs) := readFraction cs
  if whole ++ fraction = [] then none
  else (readExponent? cs).map fun e => ⟨ofDigits (whole ++ fraction), e - fraction.length⟩

def readNamed? (cs : List Char) : Option Named :=
  if lowered cs = "inf".toList ∨ lowered cs = "infinity".toList then some .infinity
  else if lowered cs = "nan".toList then some .nan
  else (readNumeral? cs).map .numeral

def read? (cs : List Char) : Option Literal :=
  let (negative, cs) := readSign cs
  (readNamed? cs).map fun named => ⟨negative, named⟩

def toSingle (l : Literal) : Float32 :=
  match l.named with
  | .infinity => Binary.toSingle l.negative Binary.single.infinity
  | .nan => Binary.toSingle false (Binary.single.infinity + Nat.pow 2 22)
  | .numeral d => Binary.toSingle l.negative (d.nearest Binary.single)

end Literal

end NeighborSearch.Decimal
