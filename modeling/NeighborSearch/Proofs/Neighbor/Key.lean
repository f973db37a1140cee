import NeighborSearch.Neighbor.Key
import NeighborSearch.Proofs.Binary.SignedSum
import NeighborSearch.Proofs.Index.NotANumber
import NeighborSearch.Proofs.TopK

/-! The order of keys is the order of nearness.

A key's bit pattern stands where the rank of its score is, only that numbers below zero leave a gap
for the negative zero, which no key is (`patternPlace_foldedKey`). So to compare keys and ids is to
compare ranks and ids (`compareKeys_eq`), and to be before another neighbor is to precede it
(`compareKeys_eq_lt_iff`). The order is total, and told by the scores as numbers, with the
infinity that is furthest away and all NaNs as one (`compareKeys_totalOrder`). -/
namespace NeighborSearch

namespace Binary
variable {x : Float32} {p : Int}

theorem ofSingle_zero : ofSingle 0.0 = .finite false 0 := by decide +kernel

/-- To add the positive zero moves no number. -/
theorem place?_add_zero (h : place? x = some p) : place? (x + 0.0) = some p := by
  rcases eq_of_place? h with ⟨negative, hx, rfl⟩ | ⟨negative, magnitude, hx, hlt, rfl⟩
  · have hsum : (ofSingle x).add? (ofSingle 0.0) = some (.infinite negative) := by
      rw [hx, ofSingle_zero]
      rfl
    rw [place?, ofSingle_add_of_add? hsum]
    rfl
  · have hs : single.signedValue negative magnitude + single.signedValue false 0 =
        single.signedValue negative magnitude := by
      rw [single.signedValue_zero, add_zero]
    obtain ⟨negative', k, hk, hsign, hsum⟩ := ofSingle_add_finite hx ofSingle_zero hs
    rw [single.abs_signedValue] at hk
    obtain rfl := hk.unique (single.rounds_value magnitude)
    rw [place?, hsum, number_of_lt negative' hlt]
    refine congrArg some ?_
    by_cases hzero : k = 0
    · rw [hzero]
      cases negative <;> cases negative' <;> rfl
    · have hnegative : negative' = negative := by
        rw [Bool.eq_iff_iff, hsign, Format.signedValue_neg_iff hzero]
        simp
      rw [hnegative]
      rfl

/-- The place of a number's pattern is the number's own, one lower down if the sign is set. -/
theorem patternPlace_toBits (h : place? x = some p) (hzero : ofSingle x ≠ .finite true 0) :
    single.patternPlace x.toBits.toNat = if p < 0 then p - 1 else p := by
  have hbit := signBit_single
  have hinfinity := infinity_single
  rcases eq_of_place? h with ⟨negative, hx, rfl⟩ | ⟨negative, magnitude, hx, hlt, rfl⟩
  · rw [toNat_toBits_of_infinite hx]
    cases negative <;> decide
  · have hpattern : single.pattern negative magnitude = x.toBits.toNat :=
      Format.pattern_of_decode x.toBits.toNat_lt hx
    rw [← hpattern, Format.patternPlace, hbit]
    cases negative with
    | false =>
      have hplace : single.pattern false magnitude = magnitude := rfl
      have hsigned : signed false magnitude = magnitude := rfl
      rw [hplace, hsigned, if_neg (by omega), if_neg (by omega)]
    | true =>
      have hplace : single.pattern true magnitude = 2 ^ 31 + magnitude := rfl
      have hpos : magnitude ≠ 0 := fun hm => hzero (hm ▸ hx)
      have hsigned : signed true magnitude = -magnitude := rfl
      rw [hplace, hsigned, if_pos (by omega), if_pos (by omega)]
      push_cast
      omega

end Binary

open Binary

variable {similarity : Bool} {x y : Float32} {p : Int} {a b : Neighbor}

/-! ### Keys and ranks -/

/-- The rank of a number is its place, turned round for a similarity. -/
theorem rankOf_of_place? (h : place? x = some p) :
    rankOf similarity x = if similarity then -p else p :=
  rankOf_eq ((congrArg place? (counted_of_place? h)).trans h)

theorem patternPlace_add_zero (h : place? x = some p) :
    single.patternPlace (x + 0.0).toBits.toNat = if p < 0 then p - 1 else p := by
  refine patternPlace_toBits (place?_add_zero h) fun hzero => ?_
  cases ofSingle_zero.symm.trans (eq_neg_zero_of_add hzero).2

/-- The pattern of a key stands where the rank of the score is, with a gap below zero. -/
theorem patternPlace_foldedKey (similarity : Bool) (x : Float32) :
    single.patternPlace (foldedKey similarity x).toBits.toNat =
      if rankOf similarity x < 0 then rankOf similarity x - 1 else rankOf similarity x := by
  rw [foldedKey]
  cases hx : place? x with
  | none =>
    have hnan := isNaN_iff.2 hx
    rw [if_pos hnan, rankOf_of_isNaN hnan]
    decide
  | some p =>
    have hnan : ¬ x.isNaN = true := by
      rw [isNaN_iff, hx]
      exact Option.some_ne_none p
    rw [if_neg hnan, rankOf_of_place? hx]
    cases similarity with
    | false => exact patternPlace_add_zero hx
    | true => exact patternPlace_add_zero (place?_neg hx)

theorem comparePatterns_foldedKey (similarity : Bool) (x y : Float32) :
    comparePatterns (foldedKey similarity x) (foldedKey similarity y) =
      compare (rankOf similarity x) (rankOf similarity y) := by
  rw [comparePatterns, patternPlace_foldedKey, patternPlace_foldedKey]
  rcases Int.lt_trichotomy (rankOf similarity x) (rankOf similarity y) with h | h | h
  · rw [Int.compare_eq_lt.2 h, Int.compare_eq_lt]
    split <;> split <;> omega
  · rw [h, Int.compare_eq_eq.2 rfl, Int.compare_eq_eq.2 rfl]
  · rw [Int.compare_eq_gt.2 h, Int.compare_eq_gt]
    split <;> split <;> omega

theorem compareKeys_eq (similarity : Bool) (a b : Neighbor) :
    a.compareKeys similarity b =
      (compare (rankOf similarity a.score) (rankOf similarity b.score)).then
        (compare a.id b.id) := by
  rw [Neighbor.compareKeys, comparePatterns_foldedKey]

/-- Keys and ids are compared as a search compares ranks and ids. -/
theorem compareKeys_eq_lt_iff : a.compareKeys similarity b = .lt ↔ Precedes similarity a b := by
  rw [compareKeys_eq, ← before_of_iff, Ranked.before_iff, Ordering.then_eq_lt, Int.compare_eq_lt,
    Int.compare_eq_eq, Nat.compare_eq_lt]
  rfl

theorem compareKeys_eq_eq_iff : a.compareKeys similarity b = .eq ↔ Alike similarity a b := by
  rw [compareKeys_eq, alike_iff, keyOf, keyOf, Prod.mk.injEq, Ordering.then_eq_eq,
    Int.compare_eq_eq, Nat.compare_eq_eq]

instance (similarity : Bool) : Std.TransCmp (Neighbor.compareKeys similarity) where
  eq_swap {a b} := by
    rw [compareKeys_eq, compareKeys_eq, Ordering.swap_then, Int.compare_swap, Nat.compare_swap]
  isLE_trans {a b c} hab hbc := by
    rw [compareKeys_eq, Ordering.isLE_then_iff_and] at *
    simp only [Int.isLE_compare, Int.compare_eq_lt, Nat.isLE_compare] at *
    omega

/-! ### Scores by their numeric order -/

/-- A NaN, or the infinity that is furthest away. -/
def Furthest (similarity : Bool) (x : Float32) : Prop := x.isNaN = true ∨ x = worst similarity

instance (similarity : Bool) (x : Float32) : Decidable (Furthest similarity x) :=
  inferInstanceAs (Decidable (_ ∨ _))

theorem furthest_iff : Furthest similarity x ↔ rankOf similarity x = single.infinity := by
  constructor
  · rintro (hnan | rfl)
    · exact rankOf_of_isNaN hnan
    · exact rankOf_worst similarity
  · exact isNaN_or_eq_worst_of_rankOf

theorem exists_place (h : ¬ Furthest similarity x) : ∃ p, place? x = some p := by
  cases hx : place? x with
  | none => exact absurd (.inl (isNaN_iff.2 hx)) h
  | some p => exact ⟨p, rfl⟩

/-- Nearer, or tied with the smaller id. -/
theorem precedes_iff : Precedes similarity a b ↔
    Nearer similarity a.score b.score ∨ Tied similarity a.score b.score ∧ a.id < b.id := by
  by_cases h : Nearer similarity a.score b.score <;> simp [Precedes, Tied, h]

/-- Scores are tied if they are equal as numbers, or both as far away as it gets. -/
theorem tied_iff : Tied similarity x y ↔
    (x == y) = true ∨ Furthest similarity x ∧ Furthest similarity y := by
  rw [tied_iff_rankOf_eq]
  constructor
  · intro hrank
    by_cases hx : Furthest similarity x
    · exact .inr ⟨hx, furthest_iff.2 (hrank ▸ furthest_iff.1 hx)⟩
    · have hy : ¬ Furthest similarity y := fun hy => hx (furthest_iff.2 (hrank ▸ furthest_iff.1 hy))
      obtain ⟨p, hp⟩ := exists_place hx
      obtain ⟨q, hq⟩ := exists_place hy
      rw [rankOf_of_place? hp, rankOf_of_place? hq] at hrank
      have hpq : p = q := by
        cases similarity
        · exact hrank
        · exact Int.neg_inj.1 hrank
      exact .inl (beq_iff_place.2 ⟨p, hp, hpq ▸ hq⟩)
  · rintro (hbeq | ⟨hx, hy⟩)
    · obtain ⟨p, hp, hq⟩ := beq_iff_place.1 hbeq
      rw [rankOf_of_place? hp, rankOf_of_place? hq]
    · rw [furthest_iff.1 hx, furthest_iff.1 hy]

/-- A score is nearer if it is so as a number, or if the other one is as far away as it gets. -/
theorem nearer_iff : Nearer similarity x y ↔ ¬ Furthest similarity x ∧
    (Furthest similarity y ∨ if similarity then y < x else x < y) := by
  have hle := rankOf_le similarity y
  rw [← rankOf_lt_iff]
  by_cases hx : Furthest similarity x
  · have hrank := furthest_iff.1 hx
    simp only [hx, not_true, false_and, iff_false]
    omega
  · have hxrank := mt furthest_iff.2 hx
    have hxle := rankOf_le similarity x
    simp only [hx, not_false_iff, true_and]
    by_cases hy : Furthest similarity y
    · have hyrank := furthest_iff.1 hy
      simp only [hy, true_or, iff_true]
      omega
    · obtain ⟨p, hp⟩ := exists_place hx
      obtain ⟨q, hq⟩ := exists_place hy
      simp only [hy, false_or]
      rw [rankOf_of_place? hp, rankOf_of_place? hq, lt_iff_of_place hp hq, lt_iff_of_place hq hp]
      cases similarity
      · rfl
      · exact Int.neg_lt_neg_iff

/-- **Comparing keys is a total order, and it means nearness.** Whatever the scores are, neighbors
are equal in this order if their ids are and their scores are tied, and one stands before another
if its score is strictly nearer, or tied with the smaller id. A search compares ranks instead, and
finds the same order. -/
theorem compareKeys_totalOrder (similarity : Bool) :
    (∀ a : Neighbor, a.compareKeys similarity a = .eq) ∧
      (∀ a b : Neighbor, b.compareKeys similarity a = (a.compareKeys similarity b).swap) ∧
      (∀ a b : Neighbor, (a.compareKeys similarity b).isLE → (b.compareKeys similarity a).isLE →
        a.compareKeys similarity b = .eq) ∧
      (∀ a b c : Neighbor, (a.compareKeys similarity b).isLE → (b.compareKeys similarity c).isLE →
        (a.compareKeys similarity c).isLE) ∧
      (∀ a b : Neighbor, (a.compareKeys similarity b).isLE ∨ (b.compareKeys similarity a).isLE) ∧
      (∀ a b : Neighbor, a.compareKeys similarity b = .eq ↔ a.id = b.id ∧
        ((a.score == b.score) = true ∨
          Furthest similarity a.score ∧ Furthest similarity b.score)) ∧
      (∀ a b : Neighbor, a.compareKeys similarity b = .lt ↔
        (¬ Furthest similarity a.score ∧ (Furthest similarity b.score ∨
          if similarity then b.score < a.score else a.score < b.score)) ∨
        ((a.score == b.score) = true ∨
          Furthest similarity a.score ∧ Furthest similarity b.score) ∧ a.id < b.id) ∧
      ∀ a b : Neighbor, (Ranked.of similarity a).before (Ranked.of similarity b) = true ↔
        a.compareKeys similarity b = .lt := by
  have hswap : ∀ a b : Neighbor, b.compareKeys similarity a = (a.compareKeys similarity b).swap :=
    fun a b => Std.OrientedCmp.eq_swap
  refine ⟨fun a => Std.ReflCmp.compare_self, hswap, fun a b => Std.OrientedCmp.isLE_antisymm,
    fun a b c => Std.TransCmp.isLE_trans, fun a b => ?_, fun a b => ?_, fun a b => ?_,
    fun a b => ?_⟩
  · rw [hswap a b]
    cases a.compareKeys similarity b <;> simp
  · rw [compareKeys_eq_eq_iff, Alike, tied_iff]
  · rw [compareKeys_eq_lt_iff, precedes_iff, nearer_iff, tied_iff]
  · rw [before_of_iff, compareKeys_eq_lt_iff]

/-- Two zeros are in the order of their ids, both are before a NaN with a smaller id, and the NaN
is as far away as the infinity. -/
theorem compareKeys_totalOrder_zeros_and_nan :
    let order := Neighbor.compareKeys true
    let nan : Neighbor := ⟨4, 0.0 / 0.0⟩
    let infinite : Neighbor := ⟨4, Float32.ofBits 0xff800000⟩
    (order ⟨7, 0.0⟩ ⟨9, -0.0⟩).isLE ∧ (order ⟨9, -0.0⟩ nan).isLE ∧ (order ⟨7, 0.0⟩ nan).isLE ∧
      order ⟨7, 0.0⟩ ⟨9, -0.0⟩ = .lt ∧ (order nan infinite).isLE ∧ (order infinite nan).isLE ∧
      order nan infinite = .eq ∧ ¬ nan.score == infinite.score := by
  intro order nan infinite
  obtain ⟨-, -, hantisymm, htrans, -, -, hlt, -⟩ := compareKeys_totalOrder true
  have hzeros : order ⟨7, 0.0⟩ ⟨9, -0.0⟩ = .lt := (hlt _ _).2 (by decide +kernel)
  have hids : (order ⟨7, 0.0⟩ ⟨9, -0.0⟩).isLE := by rw [hzeros]; rfl
  have hzero : (order ⟨9, -0.0⟩ nan).isLE := by decide +kernel
  have hinfinite : (order nan infinite).isLE := by decide +kernel
  have hnan : (order infinite nan).isLE := by decide +kernel
  exact ⟨hids, hzero, htrans _ _ _ hids hzero, hzeros, hinfinite, hnan,
    hantisymm _ _ hinfinite hnan, by decide +kernel⟩

end NeighborSearch
