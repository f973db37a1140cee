import NeighborSearch.Random.Source

/-! Random words from a ChaCha keystream.

A seed is expanded to a key, and the words of the stream are those of the blocks with the
counters 0, 1, 2, … under that key, each block having twelve rounds. -/
namespace NeighborSearch.Random.ChaCha

abbrev Key := Vector UInt32 8

abbrev Block := Vector UInt32 16

/-! ### Keys from seeds -/

/-- One step of the congruential generator that expands seeds. -/
def expand (state : UInt64) : UInt64 :=
  state * 6364136223846793005 + 11634580027462260723

def rotateRight (x : UInt32) (n : UInt32) : UInt32 :=
  (x >>> n) ||| (x <<< (32 - n))

def rotateLeft (x : UInt32) (n : UInt32) : UInt32 :=
  (x <<< n) ||| (x >>> (32 - n))

/-- The word that a state of the expansion gives: its upper bits folded together, and
rotated by the uppermost five. -/
def expansionWord (state : UInt64) : UInt32 :=
  rotateRight (((state >>> 18) ^^^ state) >>> 27).toUInt32 (state >>> 59).toUInt32

def Key.ofSeed (seed : UInt64) : Key :=
  (drawVector (fun s => (expansionWord (expand s), expand s)) 8 seed).1

/-! ### Blocks -/

def quarterRound (a b c d : Fin 16) (v : Block) : Block :=
  let v := v.set a (v[a] + v[b])
  let v := v.set d (rotateLeft (v[d] ^^^ v[a]) 16)
  let v := v.set c (v[c] + v[d])
  let v := v.set b (rotateLeft (v[b] ^^^ v[c]) 12)
  let v := v.set a (v[a] + v[b])
  let v := v.set d (rotateLeft (v[d] ^^^ v[a]) 8)
  let v := v.set c (v[c] + v[d])
  v.set b (rotateLeft (v[b] ^^^ v[c]) 7)

/-- A round down the columns and one along the diagonals. -/
def doubleRound (v : Block) : Block :=
  let v := quarterRound 0 4 8 12 v
  let v := quarterRound 1 5 9 13 v
  let v := quarterRound 2 6 10 14 v
  let v := quarterRound 3 7 11 15 v
  let v := quarterRound 0 5 10 15 v
  let v := quarterRound 1 6 11 12 v
  let v := quarterRound 2 7 8 13 v
  quarterRound 3 4 9 14 v

/-- The text "expand 32-byte k" in four words. -/
def constants : Vector UInt32 4 :=
  #v[0x61707865, 0x3320646e, 0x79622d32, 0x6b206574]

/-- The block before the rounds: constants, key, counter with its low word first, and two
words of zero. -/
def start (key : Key) (counter : UInt64) : Block :=
  constants ++ key ++ #v[counter.toUInt32, (counter >>> 32).toUInt32, 0, 0]

def block (key : Key) (counter : UInt64) : Block :=
  let v := start key counter
  Vector.zipWith (· + ·) (Nat.repeat doubleRound 6 v) v

/-! ### The stream -/

structure Stream where
  key : Key
  /-- The counter of the block that comes next. -/
  counter : UInt64
  /-- Words of the last block that are not used up. -/
  pending : List UInt32

def Stream.ofSeed (seed : UInt64) : Stream := ⟨.ofSeed seed, 0, []⟩

def Stream.next (s : Stream) : UInt32 × Stream :=
  match s.pending with
  | word :: pending => (word, { s with pending })
  | [] =>
    let words := block s.key s.counter
    (words[0], ⟨s.key, s.counter + 1, words.toList.tail⟩)

def source : Source Stream := ⟨Stream.next⟩

end NeighborSearch.Random.ChaCha
