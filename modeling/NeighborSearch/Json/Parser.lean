import NeighborSearch.Decimal.Literal
import NeighborSearch.Json.Basic

/-! Reading JSON.

`parse?` reads one value with blanks around it and nothing else. Every reader takes the
text that is left and gives what it read and what is then left. Arrays and objects are
followed to any depth: the number that the readers of values count down starts at the
length of the text, and each value read takes at least one character. -/
namespace NeighborSearch.Json
open Decimal

def skipBlanks (cs : List Char) : List Char :=
  cs.dropWhile fun c => c = ' ' || c = '\t' || c = '\n' || c = '\r'

/-! ### Strings -/

/-- A character, or an escaped code unit of 16 bits. -/
inductive StringPart where
  | char (c : Char)
  | unit (code : Nat)
deriving DecidableEq, Repr

def isHighSurrogate (code : Nat) : Bool := 0xD800 ≤ code && code < 0xDC00

def isLowSurrogate (code : Nat) : Bool := 0xDC00 ≤ code && code < 0xE000

/-- The text that the parts spell; each high surrogate needs a low one behind it, and no
other part does. -/
def textOfParts : List StringPart → JsonString
  | [] => some []
  | .char c :: rest => (textOfParts rest).map (c :: ·)
  | .unit code :: rest =>
    if isHighSurrogate code then
      match rest with
      | .unit low :: rest =>
        if isLowSurrogate low then
          (textOfParts rest).map
            (Char.ofNat (0x10000 + (code - 0xD800) * 0x400 + (low - 0xDC00)) :: ·)
        else none
      | _ => none
    else if isLowSurrogate code then none
    else (textOfParts rest).map (Char.ofNat code :: ·)

def hexValue? (c : Char) : Option Nat :=
  if '0' ≤ c ∧ c ≤ '9' then some (c.toNat - '0'.toNat)
  else if 'a' ≤ c ∧ c ≤ 'f' then some (c.toNat - 'a'.toNat + 10)
  else if 'A' ≤ c ∧ c ≤ 'F' then some (c.toNat - 'A'.toNat + 10)
  else none

def codeUnit? (a b c d : Char) : Option Nat := do
  return (((← hexValue? a) * 16 + (← hexValue? b)) * 16 + (← hexValue? c)) * 16 + (← hexValue? d)

/-- What a letter behind a backslash stands for. -/
def escaped? (c : Char) : Option Char :=
  match c with
  | '"' => some '"'
  | '\\' => some '\\'
  | '/' => some '/'
  | 'b' => some '\x08'
  | 'f' => some '\x0c'
  | 'n' => some '\n'
  | 'r' => some '\r'
  | 't' => some '\t'
  | _ => none

/-- The parts of a string up to its closing quote. Controls have to be escaped. -/
def readParts? : List Char → Option (List StringPart × List Char)
  | [] => none
  | '"' :: cs => some ([], cs)
  | '\\' :: 'u' :: a :: b :: c :: d :: cs => do
    let code ← codeUnit? a b c d
    let (parts, rest) ← readParts? cs
    return (.unit code :: parts, rest)
  | '\\' :: letter :: cs => do
    let c ← escaped? letter
    let (parts, rest) ← readParts? cs
    return (.char c :: parts, rest)
  | c :: cs =>
    if c < ' ' || c = '\\' then none
    else do
      let (parts, rest) ← readParts? cs
      return (.char c :: parts, rest)

def readString? (cs : List Char) : Option (JsonString × List Char) := do
  let (parts, rest) ← readParts? cs
  return (textOfParts parts, rest)

/-! ### Numbers -/

/-- At least one digit, and no zero in front of another one. -/
def isWhole : List Digit → Bool
  | [] => false
  | [_] => true
  | d :: _ => d != Digit.zero

/-- A point and at least one digit, or nothing. -/
def readFraction? : List Char → Option (List Digit × List Char)
  | '.' :: cs =>
    match spanDigits cs with
    | ([], _) => none
    | (ds, rest) => some (ds, rest)
  | cs => some ([], cs)

/-- A mark, a sign if there is one and at least one digit, or nothing. -/
def readExponent? : List Char → Option (Option Int × List Char)
  | [] => some (none, [])
  | c :: cs =>
    if c = 'e' ∨ c = 'E' then
      let (negative, cs) := Literal.readSign cs
      match spanDigits cs with
      | ([], _) => none
      | (ds, rest) => some (some (if negative then -(ofDigits ds : Int) else ofDigits ds), rest)
    else some (none, c :: cs)

def readMinus : List Char → Bool × List Char
  | '-' :: cs => (true, cs)
  | cs => (false, cs)

def readNumeral? (cs : List Char) : Option (Numeral × List Char) :=
  let (negative, cs) := readMinus cs
  let (whole, cs) := spanDigits cs
  if isWhole whole then do
    let (fraction, cs) ← readFraction? cs
    let (exponent, cs) ← readExponent? cs
    return (⟨negative, whole, fraction, exponent⟩, cs)
  else none

/-! ### Values -/

/-- Items up to the closing bracket, with a comma between any two of them. At most so many
are read. -/
def readItems? {α : Type} (close : Char) (item : List Char → Option (α × List Char)) :
    Nat → List Char → Option (List α × List Char)
  | 0, _ => none
  | n + 1, cs => do
    let (x, cs) ← item cs
    match skipBlanks cs with
    | c :: cs =>
      if c = ',' then
        let (xs, cs) ← readItems? close item n cs
        return (x :: xs, cs)
      else if c = close then return ([x], cs)
      else none
    | [] => none

/-- What stands between brackets, which may be nothing. -/
def readEnclosed? {α : Type} (close : Char) (item : List Char → Option (α × List Char))
    (limit : Nat) (cs : List Char) : Option (List α × List Char) :=
  match skipBlanks cs with
  | c :: rest => if c = close then some ([], rest) else readItems? close item limit (c :: rest)
  | [] => none

/-- A key, a colon and a value. -/
def readField? (value : List Char → Option (Json × List Char)) (cs : List Char) :
    Option ((JsonString × Json) × List Char) :=
  match skipBlanks cs with
  | '"' :: cs => do
    let (key, cs) ← readString? cs
    match skipBlanks cs with
    | ':' :: cs =>
      let (x, cs) ← value cs
      return ((key, x), cs)
    | _ => none
  | _ => none

def readValue? : Nat → List Char → Option (Json × List Char)
  | 0, _ => none
  | n + 1, cs =>
    match skipBlanks cs with
    | 'n' :: 'u' :: 'l' :: 'l' :: cs => some (null, cs)
    | 't' :: 'r' :: 'u' :: 'e' :: cs => some (bool true, cs)
    | 'f' :: 'a' :: 'l' :: 's' :: 'e' :: cs => some (bool false, cs)
    | '"' :: cs => (readString? cs).map fun (s, cs) => (string s, cs)
    | '[' :: cs =>
      (readEnclosed? ']' (readValue? n) n cs).map fun (items, cs) => (array items, cs)
    | '\x7b' :: cs =>
      (readEnclosed? '\x7d' (readField? (readValue? n)) n cs).map fun (fields, cs) =>
        (object fields, cs)
    | cs => (readNumeral? cs).map fun (x, cs) => (number x, cs)

/-- The value that a whole text is. -/
def parse? (cs : List Char) : Option Json :=
  match readValue? (cs.length + 1) cs with
  | some (value, rest) => if (skipBlanks rest).isEmpty then some value else none
  | none => none

end NeighborSearch.Json
