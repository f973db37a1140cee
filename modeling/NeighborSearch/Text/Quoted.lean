import NeighborSearch.Text.Printable

/-! Quoted text for messages.

A text in double quotes, so that nothing in it is lost on a reader: the quote, the
backslash and common controls are escaped by a backslash and a letter, and every other
character that does not show by itself by its code point. -/
namespace NeighborSearch.Text

def hexDigit (d : Nat) : Char :=
  if d < 10 then Char.ofNat ('0'.toNat + d) else Char.ofNat ('a'.toNat + (d - 10))

/-- The hexadecimal digits of a number, without leading zeros. -/
def hexDigits (n : Nat) : List Char :=
  go n []
where
  go (n : Nat) (tail : List Char) : List Char :=
    if n < 16 then hexDigit n :: tail else go (n / 16) (hexDigit (n % 16) :: tail)
  termination_by n
  decreasing_by omega

/-- The letter that stands behind the backslash for a character. -/
def shortEscape? (c : Char) : Option Char :=
  match c with
  | '\x00' => some '0'
  | '\t' => some 't'
  | '\n' => some 'n'
  | '\r' => some 'r'
  | '"' => some '"'
  | '\\' => some '\\'
  | _ => none

def codeEscape (c : Char) : List Char :=
  ['\\', 'u', '\x7b'] ++ hexDigits c.toNat ++ ['\x7d']

def quoteChar (c : Char) : List Char :=
  match shortEscape? c with
  | some letter => ['\\', letter]
  | none => if isPrintable c && !isExtending c then [c] else codeEscape c

def quoted (cs : List Char) : List Char :=
  ['"'] ++ cs.flatMap quoteChar ++ ['"']

end NeighborSearch.Text
