/-! Binary floating-point formats by their bit patterns.

The nonnegative values of a format, from zero up to infinity, have consecutive bit
patterns; the place of a value in that row is its *magnitude*. A magnitude below
`infinity` is `significand * 2 ^ exponent` (`significand`, `exponent`), the sign is
one more bit on top, and signed magnitudes put all values that are numbers in their
numeric order with both zeros in one place (`Format.ordinal?`). -/
namespace NeighborSearch.Binary

/-- A format with this many bits behind the leading one, and this many for the exponent. -/
structure Format where
  fractionBits : Nat
  exponentBits : Nat
deriving DecidableEq, Repr

def single : Format := ⟨23, 8⟩

def double : Format := ⟨52, 11⟩

namespace Format

/-- The exponent of the last bit of the smallest values. -/
def leastExponent (f : Format) : Int :=
  2 - (Nat.pow 2 (f.exponentBits - 1) : Nat) - f.fractionBits

/-- The magnitude of infinity. -/
def infinity (f : Format) : Nat :=
  (Nat.pow 2 f.exponentBits - 1) * Nat.pow 2 f.fractionBits

/-- The weight of the sign bit. -/
def signBit (f : Format) : Nat :=
  Nat.pow 2 (f.exponentBits + f.fractionBits)

def significand (f : Format) (magnitude : Nat) : Nat :=
  if magnitude < Nat.pow 2 f.fractionBits then magnitude
  else magnitude % Nat.pow 2 f.fractionBits + Nat.pow 2 f.fractionBits

def exponent (f : Format) (magnitude : Nat) : Int :=
  f.leastExponent + (magnitude / Nat.pow 2 f.fractionBits - 1 : Nat)

/-- The bit pattern of a signed magnitude. -/
def pattern (f : Format) (negative : Bool) (magnitude : Nat) : Nat :=
  if negative then f.signBit + magnitude else magnitude

end Format

/-- What a bit pattern stands for. -/
inductive Number where
  | nan
  | infinite (negative : Bool)
  | finite (negative : Bool) (magnitude : Nat)
deriving DecidableEq, Repr

def Format.decode (f : Format) (pattern : Nat) : Number :=
  let negative := decide (f.signBit ≤ pattern)
  let magnitude := pattern % f.signBit
  if f.infinity < magnitude then .nan
  else if magnitude = f.infinity then .infinite negative
  else .finite negative magnitude

/-- The place of a value on the number line; a NaN has none. -/
def Format.ordinal? (f : Format) : Number → Option Int
  | .nan => none
  | .infinite negative => some (if negative then -(f.infinity : Int) else f.infinity)
  | .finite negative magnitude => some (if negative then -(magnitude : Int) else magnitude)

/-- The place of a bit pattern in the order of all patterns, which tells zeros and NaNs
apart by their signs. -/
def Format.patternPlace (f : Format) (pattern : Nat) : Int :=
  if f.signBit ≤ pattern then (f.signBit : Int) - 1 - pattern else pattern

def ofSingle (x : Float32) : Number := single.decode x.toBits.toNat

def ofDouble (x : Float) : Number := double.decode x.toBits.toNat

def toSingle (negative : Bool) (magnitude : Nat) : Float32 :=
  Float32.ofBits (UInt32.ofNat (single.pattern negative magnitude))

def toDouble (negative : Bool) (magnitude : Nat) : Float :=
  Float.ofBits (UInt64.ofNat (double.pattern negative magnitude))

end NeighborSearch.Binary
