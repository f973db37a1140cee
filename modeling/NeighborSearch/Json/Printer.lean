import NeighborSearch.Json.Basic
import NeighborSearch.Text.Quoted

/-! Writing JSON.

`compact` leaves out every blank; `pretty` gives each item and each field a line of its
own, two spaces further in than what it belongs to, and keeps empty brackets together. An
exponent is always signed. -/
namespace NeighborSearch.Json
open Decimal

/-! ### Numbers and strings -/

def renderDigits (ds : List Digit) : List Char := ds.map Digit.toChar

def renderFraction : List Digit → List Char
  | [] => []
  | ds => '.' :: renderDigits ds

def renderExponent : Option Int → List Char
  | none => []
  | some e => 'e' :: (if e < 0 then '-' else '+') :: renderDigits (toDigits e.natAbs)

def Numeral.render (n : Numeral) : List Char :=
  (if n.negative then ['-'] else []) ++ renderDigits n.whole ++ renderFraction n.fraction ++
    renderExponent n.exponent

/-- A control in four hexadecimal digits. -/
def controlEscape (c : Char) : List Char :=
  ['\\', 'u', '0', '0', Text.hexDigit (c.toNat / 16), Text.hexDigit (c.toNat % 16)]

def escapeChar (c : Char) : List Char :=
  match c with
  | '"' => ['\\', '"']
  | '\\' => ['\\', '\\']
  | '\x08' => ['\\', 'b']
  | '\x0c' => ['\\', 'f']
  | '\n' => ['\\', 'n']
  | '\r' => ['\\', 'r']
  | '\t' => ['\\', 't']
  | c => if c < ' ' then controlEscape c else [c]

/-- A string in quotes; one without a text is written as an empty one. -/
def renderString (s : JsonString) : List Char :=
  '"' :: (s.getD []).flatMap escapeChar ++ ['"']

/-! ### Values -/

/-- Texts one after the other, with a separator between any two of them. -/
def separated (separator : List Char) : List (List Char) → List Char
  | [] => []
  | [text] => text
  | text :: rest => text ++ separator ++ separated separator rest

mutual

def compact : Json → List Char
  | null => ['n', 'u', 'l', 'l']
  | bool true => ['t', 'r', 'u', 'e']
  | bool false => ['f', 'a', 'l', 's', 'e']
  | number value => value.render
  | string value => renderString value
  | array items => '[' :: separated [','] (compactItems items) ++ [']']
  | object fields => '\x7b' :: separated [','] (compactFields fields) ++ ['\x7d']

def compactItems : List Json → List (List Char)
  | [] => []
  | item :: rest => compact item :: compactItems rest

def compactFields : List (JsonString × Json) → List (List Char)
  | [] => []
  | (key, value) :: rest => (renderString key ++ ':' :: compact value) :: compactFields rest

end

/-- A new line that begins so many steps in. -/
def newLine (depth : Nat) : List Char := '\n' :: List.replicate (2 * depth) ' '

/-- Lines between brackets, one step further in than these; without lines the brackets stay
together. -/
def block (left right : Char) (depth : Nat) : List (List Char) → List Char
  | [] => [left, right]
  | lines =>
    left :: newLine (depth + 1) ++ separated (',' :: newLine (depth + 1)) lines ++
      newLine depth ++ [right]

mutual

/-- The text of a value that belongs to something `depth` steps in. -/
def prettyAt (depth : Nat) : Json → List Char
  | array items => block '[' ']' depth (prettyItems (depth + 1) items)
  | object fields => block '\x7b' '\x7d' depth (prettyFields (depth + 1) fields)
  | value => compact value

def prettyItems (depth : Nat) : List Json → List (List Char)
  | [] => []
  | item :: rest => prettyAt depth item :: prettyItems depth rest

def prettyFields (depth : Nat) : List (JsonString × Json) → List (List Char)
  | [] => []
  | (key, value) :: rest =>
    (renderString key ++ ':' :: ' ' :: prettyAt depth value) :: prettyFields depth rest

end

def pretty (value : Json) : List Char := prettyAt 0 value

end NeighborSearch.Json
