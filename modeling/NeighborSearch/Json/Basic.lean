import NeighborSearch.Decimal.Basic

/-! JSON values.

A number keeps the digits it is written with, and what they are worth is decided by
whoever asks for a number of some kind. A string is none where its escapes spell half of
a surrogate pair: such a string has no text, and a value that holds one can be passed
over but not be read. -/
namespace NeighborSearch.Json
open Decimal

/-- A number as it is written: the digits before the point, those behind it, and the
exponent if there is one. -/
structure Numeral where
  negative : Bool
  whole : List Digit
  fraction : List Digit
  exponent : Option Int
deriving DecidableEq, Repr

/-- The number without its sign. -/
def Numeral.magnitude (n : Numeral) : Decimal :=
  ⟨ofDigits (n.whole ++ n.fraction), n.exponent.getD 0 - n.fraction.length⟩

/-- Whether there is neither point nor exponent. -/
def Numeral.isInteger (n : Numeral) : Bool :=
  n.fraction.isEmpty && n.exponent.isNone

end NeighborSearch.Json

namespace NeighborSearch

/-- The text of a string, if it has one. -/
abbrev JsonString := Option (List Char)

inductive Json where
  | null
  | bool (value : Bool)
  | number (value : Json.Numeral)
  | string (value : JsonString)
  | array (items : List Json)
  | object (fields : List (JsonString × Json))
deriving Inhabited

namespace Json
open Decimal

def text (s : String) : Json := string (some s.toList)

def ofNat (n : Nat) : Json := number ⟨false, toDigits n, [], none⟩

/-- An object whose keys are plain texts. -/
def record (fields : List (String × Json)) : Json :=
  object (fields.map fun (key, value) => (some key.toList, value))

end Json

end NeighborSearch
