/-! Drawing from a source of random words.

A source is a state that gives one word after the other. Whatever is drawn goes through
the state, so the order of the draws is the order in which words are used up, and drawing
first some and then more is the same as drawing all at once. -/
namespace NeighborSearch.Random

/-- How a state gives its next word. -/
structure Source (σ : Type) where
  next : σ → UInt32 × σ

/-- Draws this many values and puts them behind those drawn before. -/
def drawInto {σ α : Type} (draw : σ → α × σ) : Nat → Array α → σ → Array α × σ
  | 0, drawn, s => (drawn, s)
  | n + 1, drawn, s =>
    let (x, s) := draw s
    drawInto draw n (drawn.push x) s

theorem size_drawInto {σ α : Type} (draw : σ → α × σ) (n : Nat) (drawn : Array α) (s : σ) :
    (drawInto draw n drawn s).1.size = drawn.size + n := by
  induction n generalizing drawn s with
  | zero => rfl
  | succ n ih => rw [drawInto, ih, Array.size_push, Nat.add_assoc, Nat.add_comm 1 n]

def drawVector {σ α : Type} (draw : σ → α × σ) (n : Nat) (s : σ) : Vector α n × σ :=
  (⟨(drawInto draw n #[] s).1, by rw [size_drawInto]; exact Nat.zero_add n⟩,
    (drawInto draw n #[] s).2)

def drawList {σ α : Type} (draw : σ → α × σ) (n : Nat) (s : σ) : List α × σ :=
  let (drawn, s) := drawInto draw n #[] s
  (drawn.toList, s)

namespace Source
variable {σ : Type} (source : Source σ)

/-- One of the 2 ^ 24 multiples of 2 ^ -24 from 0 up to but not including 1. -/
def unit (s : σ) : Float32 × σ :=
  let (word, s) := source.next s
  ((word >>> 8).toFloat32 / 16777216.0, s)

/-- One of the 2 ^ 23 multiples of 2 ^ -22 from -1 up to but not including 1. -/
def symmetric (s : σ) : Float32 × σ :=
  let (word, s) := source.next s
  ((word >>> 9).toFloat32 / 8388608.0 * 2.0 - 1.0, s)

end Source

end NeighborSearch.Random
